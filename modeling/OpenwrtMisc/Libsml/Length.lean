import OpenwrtMisc.Lib.Nibbles
import OpenwrtMisc.Lib.Page
import OpenwrtMisc.Libsml.Buffer
import Mathlib.Tactic.IntervalCases

/-! The types and lengths of fields that are written, and how they are read back. -/

namespace OpenwrtMisc.Libsml

open Nibbles

/-- An assignment to the byte at the cursor. -/
def smlBufSetCurrentByte (byte : UInt8) : Writer Unit := fun page => do
  let memory ← store page.size page.place [byte] page.memory
  return ((), { page with memory })

/-- Bits that are put to the byte at the cursor. -/
def smlBufOrCurrentByte (bits : UInt8) : Writer Unit := fun page =>
  smlBufSetCurrentByte (page.memory page.place ||| bits) page

/-- The cursor of a page goes on. -/
def smlBufAdvance (bytes : Nat) : Writer Unit := fun page =>
  .ok ((), { page with place := page.place + bytes })

/-- The loop that looks for the highest group of the length. -/
def maskLoop (l : UInt32) : Nat → UInt32 → UInt32 × Nat
  -- A length above the last group has another one, so the loop does not come here.
  | 0, mask => (mask, 0)
  | maskPos + 1, mask =>
    if mask &&& l = 0 then maskLoop l maskPos (mask >>> 4) else (mask, maskPos + 1)

/-- The loop that copies the groups of the length but the last one. -/
def copyLoop (l : UInt32) : Nat → UInt32 → Nat → Writer Unit
  | 0, _, _ => throw .endless
  | turns + 1, mask, maskPos =>
    if smlLengthField.toUInt32 < mask then do
      smlBufOrCurrentByte smlAnotherTl
      smlBufOrCurrentByte ((mask &&& l) >>> (4 * maskPos).toUInt32).toUInt8
      smlBufAdvance 1
      copyLoop l turns (mask >>> 4) (maskPos - 1)
    else
      return ()

/-- The groups of a length but the last one, and the length that the last one is taken from. -/
def setGroups (l : UInt32) : Writer UInt32 := do
  if smlLengthField.toUInt32 < l then
    let (mask, maskPos) := maskLoop l 7 0xF0000000
    let l := l + maskPos.toUInt32
    -- In the rare case the sum has one more group, but the mask stays where it is.
    let rare := (0x0F <<< (4 * (maskPos + 1)).toUInt32) &&& l ≠ 0
    let maskPos := if rare then maskPos + 1 else maskPos
    let l := if rare then l + 1 else l
    copyLoop l 8 mask maskPos
    return l
  else
    return l

/-- `sml_buf_set_type_and_length`. -/
def smlBufSetTypeAndLength (type : UInt8) (l : UInt32) : Writer Unit := do
  smlBufSetCurrentByte type
  let l := if type ≠ smlTypeList then l + 1 else l
  let l ← setGroups l
  smlBufOrCurrentByte (l.toUInt8 &&& smlLengthField)
  smlBufAdvance 1

/-- The bytes of a type and the groups of a length, where all but the last one are continued. -/
def tlBytes (type : UInt8) : List Nat → List UInt8
  | [] => []
  | [last] => [type ||| UInt8.ofNat last]
  | group :: next :: rest =>
    (type ||| smlAnotherTl ||| UInt8.ofNat group) :: tlBytes 0 (next :: rest)

/-- There is a byte for each group. -/
@[simp] theorem length_tlBytes (type : UInt8) (groups : List Nat) :
    (tlBytes type groups).length = groups.length := by
  -- The last group has a byte as the others do.
  induction groups generalizing type with
  | nil => rfl
  | cons group rest ih =>
    cases rest with
    | nil => rfl
    | cons next rest => rw [tlBytes, List.length_cons, ih]; rfl

section Write

/-- A page after an assignment to the byte at its cursor. -/
def started (page : Page) (byte : UInt8) : Page :=
  { page with memory := patch page.place [byte] page.memory }

/-- A byte is assigned where there is room for one. -/
theorem smlBufSetCurrentByte_eq (page : Page) (byte : UInt8) :
    smlBufSetCurrentByte byte page =
      if page.place + 1 ≤ page.size then .ok ((), started page byte) else .error .overflow := by
  -- A byte is stored at the cursor, which stays.
  unfold smlBufSetCurrentByte store
  by_cases fits : page.place + 1 ≤ page.size
  · simp only [List.length_singleton, if_pos fits]
    rfl
  · simp only [List.length_singleton, if_neg fits]
    rfl

/-- Bits are put to the byte that was assigned. -/
theorem smlBufOrCurrentByte_started {page : Page} (fits : page.place + 1 ≤ page.size)
    (byte bits : UInt8) :
    smlBufOrCurrentByte bits (started page byte) = .ok ((), started page (byte ||| bits)) := by
  -- Both sides change the one byte at the place, so the pages are compared address by address.
  have here : (started page byte).memory page.place = byte := by simp [started, patch]
  have again : started (started page byte) (byte ||| bits) = started page (byte ||| bits) := by
    simp only [started, Page.mk.injEq, and_true]
    funext address
    -- The later assignment hides the one before it.
    by_cases same : address = page.place
    · simp [patch, same]
    · rw [patch_outside (by simp; omega), patch_outside (by simp; omega),
        patch_outside (by simp; omega)]
  change smlBufSetCurrentByte ((started page byte).memory page.place ||| bits) _ = _
  rw [here, smlBufSetCurrentByte_eq, again]
  exact if_pos fits

/-- A byte that was assigned is behind the page when the cursor goes over it. -/
theorem smlBufAdvance_started (page : Page) (byte : UInt8) :
    smlBufAdvance 1 (started page byte) = .ok ((), page.append [byte]) := rfl

/-- A blank page has a zero at its cursor. -/
theorem started_zero {page : Page} (blank : page.Blank) : started page 0 = page := by
  -- Patching a zero over a zero changes nothing.
  have same : patch page.place [0] page.memory = page.memory := by
    funext address
    by_cases here : address = page.place
    · simp [patch, here, blank.zero page.place (Nat.le_refl _)]
    · exact patch_outside (by simp; omega)
  simp only [started, same]

/-- The mask of a group. -/
def groupMask (i : Nat) : UInt32 := UInt32.ofNat (15 * 16 ^ i)

/-- The mask of a group moves to the group below it. -/
theorem groupMask_shiftRight : ∀ i < 7, groupMask (i + 1) >>> 4 = groupMask i := by decide

/-- Only the mask of the lowest group is not above it. -/
theorem groupMask_above : ∀ i < 8, smlLengthField.toUInt32 < groupMask i ↔ 0 < i := by decide

/-- The mask of the group above another one. -/
theorem groupMask_next :
    ∀ i < 7, (0x0F : UInt32) <<< (4 * (i + 1)).toUInt32 = groupMask (i + 1) := by decide

/-- A mask takes its group out of a number. -/
theorem groupMask_and {i : Nat} (inside : i < 8) (l : UInt32) :
    (groupMask i &&& l).toNat = digit l.toNat i * 16 ^ i := by
  -- The mask is fifteen times a power of sixteen, and fits a word.
  have small : 15 * 16 ^ i < 2 ^ 32 := by
    have power : 16 ^ i ≤ 16 ^ 7 := Nat.pow_le_pow_right (by decide) (by omega)
    omega
  rw [UInt32.toNat_and, groupMask, UInt32.toNat_ofNat_of_lt' small, mask_and]

/-- A group that was taken out is moved down to its place, or below it. -/
theorem groupMask_shifted {i lower : Nat} (inside : i + lower < 8) (l : UInt32) :
    ((groupMask i &&& l) >>> (4 * (i + lower)).toUInt32).toUInt8 =
      UInt8.ofNat (digit l.toNat i / 16 ^ lower) := by
  -- The shift is less than the width of a word, so it is carried out.
  have places : (4 * (i + lower)).toUInt32.toNat % 32 = 4 * (i + lower) := by
    have small : 4 * (i + lower) < 2 ^ 32 := by omega
    rw [Nat.toUInt32, UInt32.toNat_ofNat_of_lt' small]
    omega
  refine UInt8.toNat_inj.mp ?_
  rw [UInt32.toNat_toUInt8, UInt32.toNat_shiftRight, places, groupMask_and (by omega),
    Nat.shiftRight_eq_div_pow, Nat.pow_mul, Nat.pow_add, ← Nat.div_div_eq_div_mul]
  rw [Nat.mul_div_cancel _ (Nat.pow_pos (by decide))]
  rfl

/-- The loop finds the highest group. -/
theorem maskLoop_eq {l : UInt32} (several : 16 ≤ l.toNat) :
    ∀ i < 8, l.toNat < 16 ^ (i + 1) →
      ∃ top, 0 < top ∧ top ≤ i ∧ 16 ^ top ≤ l.toNat ∧ l.toNat < 16 ^ (top + 1) ∧
        maskLoop l i (groupMask i) = (groupMask top, top) := by
  -- The induction is on the position, from the highest one down.
  intro i
  induction i with
  | zero =>
    intro _ below
    omega
  | succ i ih =>
    intro inside below
    have masked := groupMask_and inside l
    rw [digit_eq_div below] at masked
    rw [maskLoop]
    by_cases none : groupMask (i + 1) &&& l = 0
    · -- The group is empty, so the number ends below it.
      rw [none] at masked
      have empty : l.toNat / 16 ^ (i + 1) = 0 := by
        rcases Nat.mul_eq_zero.mp masked.symm with empty | never
        · exact empty
        · exact absurd never (Nat.pow_pos (by decide)).ne'
      have less : l.toNat < 16 ^ (i + 1) := by
        rcases Nat.div_eq_zero_iff.mp empty with never | less
        · exact absurd never (Nat.pow_pos (by decide)).ne'
        · exact less
      obtain ⟨top, positive, le, least, most, found⟩ := ih (by omega) less
      rw [if_pos none, groupMask_shiftRight i (by omega)]
      exact ⟨top, positive, by omega, least, most, found⟩
    · rw [if_neg none]
      refine ⟨i + 1, by omega, Nat.le_refl _, ?_, below, rfl⟩
      by_contra less
      refine none (UInt32.toNat_inj.mp ?_)
      rw [masked, Nat.div_eq_of_lt (by omega), Nat.zero_mul]
      rfl

/-- A byte that there is no room for cannot be changed. -/
theorem smlBufOrCurrentByte_full {page : Page} (full : ¬ page.place + 1 ≤ page.size)
    (bits : UInt8) : smlBufOrCurrentByte bits page = .error .overflow := by
  -- To change a byte is to store it again.
  unfold smlBufOrCurrentByte
  rw [smlBufSetCurrentByte_eq, if_neg full]

/-- Groups from a position down, the last of which is told. -/
def groupsFrom (group : Nat → Nat) (last : Nat) : Nat → List Nat
  | 0 => [last]
  | i + 1 => group (i + 1) :: groupsFrom group last i

/-- There is a group for each position. -/
@[simp] theorem length_groupsFrom (group : Nat → Nat) (last i : Nat) :
    (groupsFrom group last i).length = i + 1 := by
  -- The induction is on the position of the first group.
  induction i with
  | zero => rfl
  | succ i ih => rw [groupsFrom, List.length_cons, ih]

/-- The bytes of groups, one of which is not the last. -/
theorem tlBytes_groupsFrom_succ (type : UInt8) (group : Nat → Nat) (last i : Nat) :
    tlBytes type (groupsFrom group last (i + 1)) =
      (type ||| smlAnotherTl ||| UInt8.ofNat (group (i + 1))) ::
        tlBytes 0 (groupsFrom group last i) := by
  cases i <;> rfl

/-- The rest of a length, from the byte on that its type was assigned to. -/
def finish (l : UInt32) (mask : UInt32) (maskPos turns : Nat) (last : UInt8) : Writer Unit := do
  copyLoop l turns mask maskPos
  smlBufOrCurrentByte last
  smlBufAdvance 1

/-- Where there is no room, nothing is written. -/
theorem finish_full {page : Page} (full : ¬ page.place + 1 ≤ page.size) {l : UInt32} {i : Nat}
    (maskPos turns : Nat) (last : UInt8) :
    finish l (groupMask i) maskPos (turns + 1) last page = .error .overflow := by
  -- The first byte that is changed is the one there is no room for.
  have stopped := fun bits => smlBufOrCurrentByte_full full bits
  unfold finish
  rw [copyLoop]
  by_cases more : smlLengthField.toUInt32 < groupMask i
  · rw [if_pos more]
    exact Writer.bind_error (Writer.bind_error (stopped _))
  · rw [if_neg more]
    refine (Writer.bind_ok rfl).trans ?_
    exact Writer.bind_error (stopped _)

/-- The groups are written from the byte on that the type was assigned to. -/
theorem finish_eq {l : UInt32} {group : Nat → Nat} {lower : Nat}
    (taken : ∀ i, 0 < i → i + lower < 8 →
      ((groupMask i &&& l) >>> (4 * (i + lower)).toUInt32).toUInt8 = UInt8.ofNat (group i))
    (last : Nat) :
    ∀ i turns, i + lower < 8 → i < turns → ∀ (page : Page) (first : UInt8), page.Blank →
      page.place + 1 ≤ page.size →
      finish l (groupMask i) (i + lower) turns (UInt8.ofNat last) (started page first) =
        if page.place + (i + 1) ≤ page.size then
          .ok ((), page.append (tlBytes first (groupsFrom group last i)))
        else .error .overflow := by
  -- Induction on the groups that are left below the mask.
  intro i
  induction i with
  | zero =>
    intro turns inside enough page first blank room
    obtain ⟨turns, rfl⟩ : ∃ fewer, turns = fewer + 1 := ⟨turns - 1, by omega⟩
    -- The mask stands on the last group, so the loop is over.
    rw [if_pos room, finish, copyLoop, if_neg (by decide)]
    refine (Writer.bind_ok rfl).trans ?_
    rw [Writer.bind_ok (smlBufOrCurrentByte_started room _ _), smlBufAdvance_started]
    rfl
  | succ i ih =>
    intro turns inside enough page first blank room
    obtain ⟨turns, rfl⟩ : ∃ fewer, turns = fewer + 1 := ⟨turns - 1, by omega⟩
    obtain ⟨turns, rfl⟩ : ∃ fewer, turns = fewer + 1 := ⟨turns - 1, by omega⟩
    have above := (groupMask_above (i + 1) (by omega)).mpr (Nat.succ_pos i)
    have behind : (page.append [first ||| smlAnotherTl ||| UInt8.ofNat (group (i + 1))]).Blank :=
      blank.append room
    have position : i + 1 + lower - 1 = i + lower := by omega
    -- One group is written, and the byte behind it is still zero.
    have turn : finish l (groupMask (i + 1)) (i + 1 + lower) (turns + 1 + 1) (UInt8.ofNat last)
        (started page first) =
          finish l (groupMask i) (i + lower) (turns + 1) (UInt8.ofNat last)
            (page.append [first ||| smlAnotherTl ||| UInt8.ofNat (group (i + 1))]) := by
      rw [finish, copyLoop, if_pos above, taken (i + 1) (by omega) inside, position,
        groupMask_shiftRight i (by omega)]
      simp only [bind_assoc]
      rw [Writer.bind_ok (smlBufOrCurrentByte_started room _ _),
        Writer.bind_ok (smlBufOrCurrentByte_started room _ _),
        Writer.bind_ok (smlBufAdvance_started _ _)]
      rfl
    rw [turn, tlBytes_groupsFrom_succ]
    by_cases next : page.place + 1 + 1 ≤ page.size
    · have rest := ih (turns + 1) (by omega) (by omega) _ 0 behind next
      rw [started_zero behind] at rest
      rw [rest]
      simp only [Page.append_append, List.singleton_append]
      simp only [Page.append, List.length_singleton, Nat.add_assoc, Nat.add_comm 1]
    · rw [finish_full next, if_neg (by omega)]

/-- The length that is written: a list is as long as it is, another field counts its first byte. -/
def counted (type : UInt8) (l : Nat) : Nat := if type = smlTypeList then l else l + 1

/-- A length with its highest group at a position, and the bytes in front of its last group. -/
structure Spread (l top : Nat) : Prop where
  positive : 0 < top
  least : 16 ^ top ≤ l
  most : l < 16 ^ (top + 1)

/-- The groups that are written for a length. -/
def writtenGroups (l top : Nat) : List Nat :=
  if l + top < 16 ^ (top + 1) then digits (l + top) top
  -- The sum has one more group than was looked for: the copied groups are empty then.
  else groupsFrom (fun _ => 0) (digit (l + top + 1) 0) top

/-- The groups of a number are groups from a position down. -/
theorem digits_eq_groupsFrom (n i : Nat) : digits n i = groupsFrom (digit n) (digit n 0) i := by
  -- Both go down to the lowest group.
  induction i with
  | zero => rfl
  | succ i ih => rw [digits, groupsFrom, ih]

/-- The last byte holds the last group. -/
theorem lastGroup_eq (l : UInt32) :
    l.toUInt8 &&& smlLengthField = UInt8.ofNat (digit l.toNat 0) := by
  -- The mask of four bits is the remainder by sixteen.
  refine UInt8.toNat_inj.mp ?_
  have masked : ∀ n, n &&& 15 = n % 16 := fun n => Nat.and_two_pow_sub_one_eq_mod n 4
  rw [UInt8.toNat_and, UInt32.toNat_toUInt8]
  refine (masked _).trans ?_
  rw [UInt8.toNat_ofNat', digit, Nat.pow_zero, Nat.div_one]
  omega

/-- The length that is counted does not leave its word. -/
theorem toNat_counted {type : UInt8} {l : UInt32} (small : counted type l.toNat < 2 ^ 32) :
    (if type ≠ smlTypeList then l + 1 else l).toNat = counted type l.toNat := by
  -- Only a length that is no list's counts its own byte.
  unfold counted at small ⊢
  by_cases list : type = smlTypeList
  · simp [list]
  · rw [if_neg list] at small
    rw [if_pos list, if_neg list, UInt32.toNat_add]
    exact Nat.mod_eq_of_lt small

/-- A short length is written as one byte. -/
theorem writes_short {type : UInt8} {l : UInt32} (short : counted type l.toNat < 16) :
    Writes (smlBufSetTypeAndLength type l) (tlBytes type [counted type l.toNat]) := by
  -- No group is set before the last one, so the loop has nothing to do.
  intro page blank
  have same := toNat_counted (l := l) (Nat.lt_trans short (by decide))
  have stays : setGroups (if type ≠ smlTypeList then l + 1 else l) =
      pure (if type ≠ smlTypeList then l + 1 else l) := by
    unfold setGroups
    rw [if_neg]
    rw [UInt32.lt_iff_toNat_lt, same]
    exact Nat.not_lt.mpr (Nat.lt_succ_iff.mp short)
  simp only [smlBufSetTypeAndLength, stays, pure_bind, lastGroup_eq, same]
  by_cases room : page.place + 1 ≤ page.size
  · rw [Writer.bind_ok (by rw [smlBufSetCurrentByte_eq, if_pos room]),
      Writer.bind_ok (smlBufOrCurrentByte_started room _ _), smlBufAdvance_started, tlBytes,
      List.length_singleton, if_pos room, digit, Nat.pow_zero, Nat.div_one, Nat.mod_eq_of_lt short]
  · rw [Writer.bind_error (by rw [smlBufSetCurrentByte_eq, if_neg room]), tlBytes,
      List.length_singleton, if_neg room]

/-- There is one highest group. -/
theorem Spread.unique {l top other : Nat} (one : Spread l top) (two : Spread l other) :
    top = other := by
  -- The highest group is the logarithm to base sixteen.
  rw [← Nat.log_eq_of_pow_le_of_lt_pow one.least one.most,
    Nat.log_eq_of_pow_le_of_lt_pow two.least two.most]

/-- The sum has another group when the mask of that group meets it. -/
theorem groupMask_next_and {l : UInt32} {top : Nat} (below : top < 7)
    (small : l.toNat < 16 ^ (top + 1 + 1)) :
    (0x0F <<< (4 * (top + 1)).toUInt32) &&& l ≠ 0 ↔ ¬ l.toNat < 16 ^ (top + 1) := by
  -- The highest group is what remains of the mask, and it is zero when the sum did not grow.
  have masked := groupMask_and (i := top + 1) (by omega) l
  rw [digit_eq_div small] at masked
  rw [groupMask_next top below, not_iff_not, ← UInt32.toNat_inj, masked]
  constructor
  · intro none
    rcases Nat.mul_eq_zero.mp none with empty | never
    · rcases Nat.div_eq_zero_iff.mp empty with never | less
      · exact absurd never (Nat.pow_pos (by decide)).ne'
      · exact less
    · exact absurd never (Nat.pow_pos (by decide)).ne'
  · intro less
    rw [Nat.div_eq_of_lt less, Nat.zero_mul]
    rfl

/-- The groups of a longer length are copied from its highest one on. -/
theorem setGroups_eq {l : UInt32} {top : Nat} (below : top < 7) (spread : Spread l.toNat top) :
    ∃ (lower : Nat) (sum : UInt32) (group : Nat → Nat),
      setGroups l = (do copyLoop sum 8 (groupMask top) (top + lower); return sum) ∧
      top + lower < 8 ∧
      (∀ i, 0 < i → i + lower < 8 →
        ((groupMask i &&& sum) >>> (4 * (i + lower)).toUInt32).toUInt8 = UInt8.ofNat (group i)) ∧
      groupsFrom group (digit sum.toNat 0) top = writtenGroups l.toNat top := by
  -- The loop that looks for the highest group stops at it, and the other one writes from there.
  obtain ⟨positive, least, most⟩ := spread
  have sixteen : 16 ^ 1 ≤ 16 ^ top := Nat.pow_le_pow_right (by decide) positive
  have bound : 16 ^ (top + 1) ≤ 16 ^ 7 := Nat.pow_le_pow_right (by decide) (by omega)
  -- The loop stops at the highest group of the length.
  have found : maskLoop l 7 0xF0000000 = (groupMask top, top) := by
    obtain ⟨other, pos, _, low, high, stopped⟩ := maskLoop_eq (l := l) (by omega) 7 (by decide)
      (Nat.lt_of_lt_of_le most (Nat.pow_le_pow_right (by decide) (by omega)))
    rw [Spread.unique ⟨positive, least, most⟩ ⟨pos, low, high⟩]
    exact stopped
  have added : (l + top.toUInt32).toNat = l.toNat + top := by
    have small : top < 2 ^ 32 := by omega
    rw [UInt32.toNat_add, Nat.toUInt32, UInt32.toNat_ofNat_of_lt' small]
    exact Nat.mod_eq_of_lt (by omega)
  have next := groupMask_next_and (l := l + top.toUInt32) below (by
    rw [added, Nat.pow_succ]
    omega)
  rw [added] at next
  have above : smlLengthField.toUInt32 < l := by
    rw [UInt32.lt_iff_toNat_lt]
    exact Nat.lt_of_lt_of_le (by decide : 15 < 16 ^ 1) (Nat.le_trans sixteen least)
  by_cases fits : l.toNat + top < 16 ^ (top + 1)
  · -- Each group of the sum is copied to its place.
    have usual := not_not.mp (mt next.mp (not_not.mpr fits))
    refine ⟨0, l + top.toUInt32, digit (l.toNat + top), ?_, by omega, ?_, ?_⟩
    · rw [setGroups, if_pos above, found]
      simp only [usual, ne_eq, not_true_eq_false, if_false, Nat.add_zero]
    · intro i _ inside
      rw [groupMask_shifted inside, added, Nat.pow_zero, Nat.div_one]
    · rw [added, writtenGroups, if_pos fits, digits_eq_groupsFrom]
  · -- Each group is moved one place too far, and nothing is left of it.
    have rare := next.mpr fits
    refine ⟨1, l + top.toUInt32 + 1, fun _ => 0, ?_, by omega, ?_, ?_⟩
    · rw [setGroups, if_pos above, found]
      simp only [rare, if_true, ne_eq, not_false_eq_true]
    · intro i _ inside
      rw [groupMask_shifted inside, Nat.pow_one, Nat.div_eq_of_lt (digit_lt _ _)]
    · have more : (l + top.toUInt32 + 1).toNat = l.toNat + top + 1 := by
        rw [UInt32.toNat_add, added]
        exact Nat.mod_eq_of_lt (by simp; omega)
      rw [more, writtenGroups, if_neg fits]

/-- A longer length is written in groups. -/
theorem writes_spread {type : UInt8} {l : UInt32} {top : Nat} (below : top < 7)
    (spread : Spread (counted type l.toNat) top) :
    Writes (smlBufSetTypeAndLength type l)
      (tlBytes type (writtenGroups (counted type l.toNat) top)) := by
  -- The groups are written from the highest one down, in the page that is blank behind them.
  intro page blank
  have bound : 16 ^ (top + 1) ≤ 16 ^ 7 := Nat.pow_le_pow_right (by decide) (by omega)
  have same := @toNat_counted type l
    (Nat.lt_trans spread.most (Nat.lt_of_le_of_lt bound (by decide)))
  rw [← same] at spread ⊢
  obtain ⟨lower, sum, group, set, inside, taken, groups⟩ := setGroups_eq below spread
  have whole : smlBufSetTypeAndLength type l = (do
      smlBufSetCurrentByte type
      finish sum (groupMask top) (top + lower) 8 (UInt8.ofNat (digit sum.toNat 0))) := by
    simp only [smlBufSetTypeAndLength, set, finish, bind_assoc, pure_bind, lastGroup_eq]
  rw [whole, ← groups, length_tlBytes, length_groupsFrom]
  by_cases room : page.place + 1 ≤ page.size
  · rw [Writer.bind_ok (by rw [smlBufSetCurrentByte_eq, if_pos room])]
    exact finish_eq taken _ top 8 inside (by omega) page type blank room
  · rw [Writer.bind_error (by rw [smlBufSetCurrentByte_eq, if_neg room]), if_neg (by omega)]

end Write

section Read

/-- The types that fields have. -/
def fieldTypes : List UInt8 :=
  [smlTypeOctetString, smlTypeBoolean, smlTypeInteger, smlTypeUnsigned, smlTypeList]

/-- A byte of a length that is continued says so, and has its group. -/
theorem continued_byte : ∀ type ∈ fieldTypes, ∀ group < 16,
    (type ||| smlAnotherTl ||| UInt8.ofNat group) &&& smlAnotherTl = smlAnotherTl ∧
      (type ||| smlAnotherTl ||| UInt8.ofNat group) &&& smlLengthField = UInt8.ofNat group ∧
      (type ||| smlAnotherTl ||| UInt8.ofNat group) &&& smlTypeField = type := by decide +kernel

/-- The last byte of a length is not continued, and has its group. -/
theorem last_byte : ∀ type ∈ fieldTypes, ∀ group < 16,
    (type ||| UInt8.ofNat group) &&& smlAnotherTl ≠ smlAnotherTl ∧
      (type ||| UInt8.ofNat group) &&& smlLengthField = UInt8.ofNat group ∧
      (type ||| UInt8.ofNat group) &&& smlTypeField = type := by decide +kernel

/-- A group is put behind the ones before it. -/
theorem shiftLeft_or_group {length : UInt32} {group : Nat} (four : group < 16)
    (small : 16 * length.toNat + group < 2 ^ 32) :
    length <<< 4 ||| (UInt8.ofNat group).toUInt32 = UInt32.ofNat (16 * length.toNat + group) := by
  -- The four bits behind a shifted number are free.
  refine UInt32.toNat_inj.mp ?_
  have shifted : (length <<< 4).toNat = length.toNat <<< 4 := by
    rw [UInt32.toNat_shiftLeft]
    refine Nat.mod_eq_of_lt ?_
    rw [Nat.shiftLeft_eq]
    change length.toNat * 2 ^ 4 < _
    omega
  have byte : (UInt8.ofNat group).toUInt32.toNat = group := by
    rw [UInt8.toNat_toUInt32, UInt8.toNat_ofNat']
    exact Nat.mod_eq_of_lt (by omega)
  rw [UInt32.toNat_or, shifted, byte, UInt32.toNat_ofNat_of_lt' small,
    ← Nat.shiftLeft_add_eq_or_of_lt (by omega : group < 2 ^ 4), Nat.shiftLeft_eq]
  omega

/-- A number does not get smaller by groups behind it. -/
theorem le_extend (n : Nat) (groups : List Nat) : n ≤ extend n groups := by
  -- The induction is on the groups, each of which multiplies by sixteen.
  induction groups generalizing n with
  | nil => exact Nat.le_refl _
  | cons group rest ih => exact Nat.le_trans (by omega) (ih (16 * n + group))

/-- The byte in the middle of a buffer is read. -/
theorem smlBufGetCurrentByte_append (before : List UInt8) (byte : UInt8) (after : List UInt8)
    (error : Bool) :
    smlBufGetCurrentByte ⟨before ++ byte :: after, before.length, error⟩ =
      .ok (byte, ⟨before ++ byte :: after, before.length, error⟩) := by
  simp [smlBufGetCurrentByte, readByte, Bind.bind, Except.bind, Pure.pure, Except.pure]

/-- A reader that came to an end is followed by the next one. -/
theorem Reader.bind_ok {α β : Type} {reader : Reader α} {next : α → Reader β}
    {before after : Cursor} {value : α} (ended : reader before = .ok (value, after)) :
    (reader >>= next) before = next value after := by
  -- The sequence runs the first reader, whose outcome is known.
  change Except.bind (reader before) _ = _
  rw [ended]
  rfl

/-- The loop reads the groups of a length up to its last byte. -/
theorem nextLengthLoop_tlBytes :
    ∀ (groups : List Nat) {type : UInt8}, type ∈ fieldTypes → groups ≠ [] →
      (∀ group ∈ groups, group < 16) →
      ∀ (before after : List UInt8) (left : Nat) (length : UInt32) (list : Int),
        groups.length ≤ left → extend length.toNat groups < 2 ^ 32 → list ≤ 0 →
        nextLengthLoop left length list
            ⟨before ++ (tlBytes type groups ++ after), before.length, false⟩ =
          .ok ((UInt32.ofNat (extend length.toNat groups),
              if list = 0 then 0 else list - (groups.length - 1 : Nat)),
            ⟨before ++ (tlBytes type groups ++ after), before.length + (groups.length - 1),
              false⟩) := by
  -- Induction on the groups; a byte whose highest bit is set is followed by another one.
  intro groups
  induction groups with
  | nil => exact fun _ some => absurd rfl some
  | cons group rest ih =>
    intro type typed _ four before after left length list enough small negative
    obtain ⟨left, rfl⟩ : ∃ fewer, left = fewer + 1 := ⟨left - 1, by simp at enough; omega⟩
    have fits := four group List.mem_cons_self
    have put := shiftLeft_or_group fits (Nat.lt_of_le_of_lt (le_extend _ rest) small)
    rw [nextLengthLoop]
    cases rest with
    | nil =>
      -- The last byte ends the loop.
      obtain ⟨ends, has, _⟩ := last_byte type typed group fits
      rw [tlBytes, List.singleton_append]
      rw [Reader.bind_ok (smlBufGetCurrentByte_append before _ after false), if_pos ends, has, put]
      have kept : (if list = 0 then 0 else list - (([group].length - 1 : Nat) : Int)) = list := by
        split <;> simp_all
      rw [kept]
      rfl
    | cons next rest =>
      obtain ⟨goes, has, _⟩ := continued_byte type typed group fits
      rw [tlBytes, List.cons_append]
      rw [Reader.bind_ok (smlBufGetCurrentByte_append before _ _ false), if_neg (not_not.mpr goes),
        has, put]
      have moved : (smlBufUpdateBytesRead 1)
          ⟨before ++ (type ||| smlAnotherTl ||| UInt8.ofNat group) ::
            (tlBytes 0 (next :: rest) ++ after), before.length, false⟩ =
          .ok ((), ⟨(before ++ [type ||| smlAnotherTl ||| UInt8.ofNat group]) ++
            (tlBytes 0 (next :: rest) ++ after),
            (before ++ [type ||| smlAnotherTl ||| UInt8.ofNat group]).length, false⟩) := by
        simp [smlBufUpdateBytesRead]
      have word : (UInt32.ofNat (16 * length.toNat + group)).toNat = 16 * length.toNat + group :=
        UInt32.toNat_ofNat_of_lt' (Nat.lt_of_le_of_lt (le_extend _ (next :: rest)) small)
      rw [Reader.bind_ok moved]
      rw [ih (by decide) (by simp) (fun other member => four other (.tail _ member)) _ after left
        _ _ (by simp at enough ⊢; omega) (by rw [word]; exact small) (by split <;> omega), word]
      simp only [List.length_append, List.length_cons, List.length_nil, List.append_assoc,
        List.singleton_append, Except.ok.injEq, Prod.mk.injEq, Cursor.mk.injEq, true_and, and_true]
      refine ⟨⟨rfl, ?_⟩, by omega⟩
      split <;> split <;> omega

/-- A sum of words is a small number when it is one. -/
theorem toInt_add_ofInt {n : Nat} {list : Int} (small : n < 2 ^ 28) (low : -16 ≤ list)
    (high : list ≤ 0) : ((UInt32.ofNat n).toBitVec + BitVec.ofInt 32 list).toInt = n + list := by
  -- Both summands are small enough for their sum not to wrap.
  have word : (UInt32.ofNat n).toBitVec.toInt = n := by
    rw [BitVec.toInt_eq_toNat_of_lt] <;> simp <;> omega
  rw [BitVec.toInt_add, word, BitVec.toInt_ofInt, Int.add_bmod_bmod, Int.bmod_eq_of_le] <;> omega

/-- The first byte of a length has its type. -/
theorem tlBytes_first {type : UInt8} (typed : type ∈ fieldTypes) {groups : List Nat}
    (some : groups ≠ []) (four : ∀ group ∈ groups, group < 16) :
    ∃ first rest, tlBytes type groups = first :: rest ∧ first &&& smlTypeField = type := by
  -- The first byte is the last one too when there is a single group.
  match groups with
  | [group] => exact ⟨_, _, rfl, (last_byte type typed group (four _ (.head _))).2.2⟩
  | group :: next :: rest =>
    exact ⟨_, _, rfl, (continued_byte type typed group (four _ (.head _))).2.2⟩

/-- A length is read from its groups: a list is as long as they say. -/
theorem smlBufGetNextLength_tlBytes {type : UInt8} (typed : type ∈ fieldTypes)
    {groups : List Nat} (some : groups ≠ []) (four : ∀ group ∈ groups, group < 16)
    (few : groups.length < 16) (small : extend 0 groups < 2 ^ 28) (before after : List UInt8) :
    smlBufGetNextLength ⟨before ++ tlBytes type groups ++ after, before.length, false⟩ =
      .ok (extend 0 groups - (if type = smlTypeList then 0 else groups.length : Nat),
        ⟨before ++ tlBytes type groups ++ after, before.length + groups.length, false⟩) := by
  -- The type is told from the first byte, the groups are summed up, and their number is taken
  -- off.
  have positive : 0 < groups.length := List.length_pos_iff.mpr some
  obtain ⟨first, rest, bytes, typeOf⟩ := tlBytes_first typed some four
  have left : smlLeft ⟨before ++ (tlBytes type groups ++ after), before.length, false⟩ =
      .ok (groups.length + after.length,
        ⟨before ++ (tlBytes type groups ++ after), before.length, false⟩) := by
    simp [smlLeft, Cursor.room]
  have byte : smlBufGetCurrentByte
      ⟨before ++ (tlBytes type groups ++ after), before.length, false⟩ =
      .ok (first, ⟨before ++ (tlBytes type groups ++ after), before.length, false⟩) := by
    rw [bytes]
    exact smlBufGetCurrentByte_append before first _ false
  have read := nextLengthLoop_tlBytes groups typed some four before after
    (groups.length + after.length) 0 (if type = smlTypeList then 0 else -1) (by omega)
    (Nat.lt_trans small (by decide)) (by split <;> omega)
  have last : smlLeft ⟨before ++ (tlBytes type groups ++ after),
      before.length + (groups.length - 1), false⟩ =
      .ok (1 + after.length, ⟨before ++ (tlBytes type groups ++ after),
        before.length + (groups.length - 1), false⟩) := by
    simp only [smlLeft, Cursor.room, List.length_append, length_tlBytes, Except.ok.injEq,
      Prod.mk.injEq, and_true]
    omega
  rw [List.append_assoc, smlBufGetNextLength, Reader.bind_ok left, if_neg (by omega),
    Reader.bind_ok byte, typeOf]
  -- The loop stops before the last byte, which is there.
  refine (Reader.bind_ok read).trans ((Reader.bind_ok last).trans ?_)
  rw [if_pos (by omega)]
  refine (Reader.bind_ok rfl).trans ?_
  refine congrArg Except.ok (Prod.ext ?_ ?_)
  · change ((UInt32.ofNat (extend 0 groups)).toBitVec + BitVec.ofInt 32 _).toInt = _
    rw [toInt_add_ofInt small (by split <;> split <;> omega) (by split <;> split <;> omega)]
    by_cases list : type = smlTypeList
    · simp [list]
    · simp only [if_neg list]
      rw [if_neg (by decide)]
      omega
  · simp only [Cursor.mk.injEq, true_and, and_true]
    omega

end Read

section RoundTrip

/-- The groups that a length is written in. -/
def lengthGroups (type : UInt8) (l : Nat) : List Nat :=
  if counted type l < 16 then [counted type l]
  else writtenGroups (counted type l) (Nat.log 16 (counted type l))

/-- The bytes of a type and a length. -/
def header (type : UInt8) (l : Nat) : List UInt8 := tlBytes type (lengthGroups type l)

/-- The lengths that are read as they were written. -/
def LengthKept (type : UInt8) (l : Nat) : Prop :=
  if type = smlTypeList then l < 16 else ∀ k, 2 ≤ k → ¬ (16 ^ k ≤ l + k ∧ l + 2 ≤ 16 ^ k)

/-- A longer length has its highest group at its logarithm. -/
theorem spread_log {l : Nat} (long : 16 ≤ l) : Spread l (Nat.log 16 l) where
  positive := Nat.log_pos (by decide) long
  least := Nat.pow_log_le_self 16 (by omega)
  most := Nat.lt_pow_succ_log_self (by decide) l

/-- The highest group of a length below a power is below its exponent. -/
theorem log_lt_seven {l : Nat} (small : l < 2 ^ 28) : Nat.log 16 l < 7 :=
  Nat.log_lt_of_lt_pow' (by decide) small

/-- The header of a field is written. -/
theorem writes_header {type : UInt8} {l : UInt32} (small : l.toNat < 2 ^ 28 - 8) :
    Writes (smlBufSetTypeAndLength type l) (header type l.toNat) := by
  -- One group is enough, or the highest one is told by the logarithm.
  have below : counted type l.toNat < 2 ^ 28 := by
    unfold counted
    split <;> omega
  unfold header lengthGroups
  split
  · exact writes_short ‹_›
  · exact writes_spread (log_lt_seven below) (spread_log (by omega))

/-- Every group that is written has four bits. -/
theorem writtenGroups_four {l top : Nat} : ∀ group ∈ writtenGroups l top, group < 16 := by
  -- All groups are digits to base sixteen, also those that were shifted.
  have from_ : ∀ {group : Nat → Nat} {last : Nat}, (∀ i, group i < 16) → last < 16 →
      ∀ i, ∀ each ∈ groupsFrom group last i, each < 16 := by
    intro group last four least i
    induction i with
    | zero => simpa [groupsFrom] using least
    | succ i ih => simpa [groupsFrom] using ⟨four (i + 1), ih⟩
  unfold writtenGroups
  split
  · rw [digits_eq_groupsFrom]
    exact from_ (digit_lt _) (digit_lt _ _) _
  · exact from_ (fun _ => by decide) (digit_lt _ _) _

/-- There are as many groups as there are positions from the highest one down. -/
theorem length_writtenGroups (l top : Nat) : (writtenGroups l top).length = top + 1 := by
  -- Both kinds of groups go from the highest position down to the lowest.
  unfold writtenGroups
  split
  · exact length_digits _ _
  · exact length_groupsFrom _ _ _

/-- Groups that are empty denote what the last one does. -/
theorem extend_groupsFrom_zero (last : Nat) :
    ∀ i, extend 0 (groupsFrom (fun _ => 0) last i) = last
  | 0 => by simp [groupsFrom, extend]
  | i + 1 => extend_groupsFrom_zero last i

/-- A power of sixteen is well above its exponent. -/
theorem add_lt_pow {k : Nat} (several : 2 ≤ k) : 16 ^ (k - 1) + k < 16 ^ k := by
  -- A power of sixteen grows by more than its exponent.
  obtain ⟨k, rfl⟩ : ∃ fewer, k = fewer + 1 := ⟨k - 1, by omega⟩
  have above : k < 16 ^ k := Nat.lt_pow_self (by decide)
  rw [Nat.add_sub_cancel, Nat.pow_succ]
  omega

/-- The length that is read from the groups that were written. -/
def readLength (type : UInt8) (l : Nat) : Int :=
  extend 0 (lengthGroups type l) -
    (if type = smlTypeList then 0 else (lengthGroups type l).length : Nat)

/-- A length in one byte is kept. -/
theorem readLength_short {type : UInt8} {l : Nat} (short : counted type l < 16) :
    readLength type l = l ∧ LengthKept type l := by
  -- One group is the length itself, with its own byte counted for all but a list.
  unfold readLength lengthGroups LengthKept
  rw [if_pos short]
  unfold counted at short ⊢
  by_cases list : type = smlTypeList
  · simp only [if_pos list] at short ⊢
    exact ⟨by simp [extend], short⟩
  · simp only [if_neg list] at short ⊢
    refine ⟨by simp [extend], fun k several kept => ?_⟩
    have above := add_lt_pow several
    have more : 16 ^ 1 ≤ 16 ^ (k - 1) := Nat.pow_le_pow_right (by decide) (by omega)
    omega

/-- A length whose sum stays in its groups is kept unless it is a list's. -/
theorem readLength_usual {type : UInt8} {l top : Nat} (spread : Spread (counted type l) top)
    (long : ¬ counted type l < 16) (usual : counted type l + top < 16 ^ (top + 1)) :
    readLength type l = l ↔ LengthKept type l := by
  -- The sum of length and groups has as many groups as the length, so all of them are written.
  obtain ⟨positive, least, most⟩ := spread
  have log : Nat.log 16 (counted type l) = top := Nat.log_eq_of_pow_le_of_lt_pow least most
  have groups : lengthGroups type l = digits (counted type l + top) top := by
    rw [lengthGroups, if_neg long, log, writtenGroups, if_pos usual]
  rw [readLength, groups, extend_zero_digits usual, length_digits]
  unfold LengthKept
  unfold counted at long least most usual ⊢
  by_cases list : type = smlTypeList
  · simp only [if_pos list] at long ⊢
    exact iff_of_false (by omega) long
  · simp only [if_neg list] at long least most usual ⊢
    refine iff_of_true (by omega) fun k several kept => ?_
    -- The power is the one above the length, or it is far above it.
    have reaches : top + 1 ≤ k := by
      by_contra less
      have power : 16 ^ k ≤ 16 ^ top := Nat.pow_le_pow_right (by decide) (by omega)
      omega
    rcases Nat.eq_or_lt_of_le reaches with rfl | further
    · omega
    · have power : 16 ^ (top + 1) ≤ 16 ^ (k - 1) := Nat.pow_le_pow_right (by decide) (by omega)
      have above := add_lt_pow several
      omega

/-- A length whose sum has one group more is lost. -/
theorem readLength_rare {type : UInt8} {l top : Nat} (spread : Spread (counted type l) top)
    (below : top < 7) (rare : ¬ counted type l + top < 16 ^ (top + 1)) :
    readLength type l ≠ l ∧ ¬ LengthKept type l := by
  -- The carry of the sum opens a group that was not counted, and the highest one is not written.
  obtain ⟨positive, least, most⟩ := spread
  have sixteen : 16 ^ 1 ≤ 16 ^ top := Nat.pow_le_pow_right (by decide) positive
  have log : Nat.log 16 (counted type l) = top := Nat.log_eq_of_pow_le_of_lt_pow least most
  have groups : lengthGroups type l =
      groupsFrom (fun _ => 0) (digit (counted type l + top + 1) 0) top := by
    rw [lengthGroups, if_neg (by omega), log, writtenGroups, if_neg rare]
  -- Only the last group is left of the sum, and that is small.
  have last : digit (counted type l + top + 1) 0 ≤ top := by
    rw [digit, Nat.pow_zero, Nat.div_one]
    have multiple : 16 ^ (top + 1) = 16 * 16 ^ top := by rw [Nat.pow_succ, Nat.mul_comm]
    omega
  rw [readLength, groups, extend_groupsFrom_zero, length_groupsFrom]
  unfold LengthKept
  unfold counted at last least most rare ⊢
  by_cases list : type = smlTypeList
  · simp only [if_pos list] at last least ⊢
    exact ⟨by omega, by omega⟩
  · simp only [if_neg list] at last least most rare ⊢
    refine ⟨by omega, fun kept => ?_⟩
    exact kept (top + 1) (by omega) ⟨by omega, by omega⟩

/-- The groups of the header read back as the length just when it is kept. -/
theorem readLength_eq_iff {type : UInt8} {l : Nat} (small : l < 2 ^ 28 - 8) :
    readLength type l = l ↔ LengthKept type l := by
  -- A single group is always kept, and several are when their number did not grow.
  have counts : counted type l < 2 ^ 28 := by
    unfold counted
    split <;> omega
  by_cases short : counted type l < 16
  · obtain ⟨same, kept⟩ := readLength_short short
    exact iff_of_true same kept
  have spread := spread_log (Nat.le_of_not_lt short)
  by_cases usual : counted type l + Nat.log 16 (counted type l) <
      16 ^ (Nat.log 16 (counted type l) + 1)
  · exact readLength_usual spread short usual
  · obtain ⟨other, lost⟩ := readLength_rare spread (log_lt_seven counts) usual
    exact iff_of_false other lost

/-- The groups of a length are some, few, and small. -/
theorem lengthGroups_small {type : UInt8} {l : Nat} (small : l < 2 ^ 28 - 8) :
    lengthGroups type l ≠ [] ∧ (∀ group ∈ lengthGroups type l, group < 16) ∧
      (lengthGroups type l).length < 16 ∧ extend 0 (lengthGroups type l) < 2 ^ 28 := by
  -- One group is small itself, and several are at most seven digits.
  have counts : counted type l < 2 ^ 28 - 7 := by
    unfold counted
    split <;> omega
  have below := log_lt_seven (Nat.lt_trans counts (by decide))
  unfold lengthGroups
  split
  · rename_i short
    exact ⟨by simp, by simpa using short, by simp, by simp [extend]; omega⟩
  · have count := length_writtenGroups (counted type l) (Nat.log 16 (counted type l))
    refine ⟨fun none => by simp [none] at count, writtenGroups_four, by omega, ?_⟩
    unfold writtenGroups
    split
    · rw [extend_zero_digits ‹_›]
      omega
    · rw [extend_groupsFrom_zero]
      exact Nat.lt_trans (digit_lt _ _) (by decide)

/-- What is read from a header. -/
theorem smlBufGetNextLength_header {type : UInt8} (typed : type ∈ fieldTypes) {l : Nat}
    (small : l < 2 ^ 28 - 8) (before after : List UInt8) :
    smlBufGetNextLength ⟨before ++ header type l ++ after, before.length, false⟩ =
      .ok (readLength type l, ⟨before ++ header type l ++ after,
        before.length + (header type l).length, false⟩) := by
  -- The header is made of the groups, which the loop of the reader extends.
  obtain ⟨some, four, few, fits⟩ := @lengthGroups_small type l small
  rw [header, length_tlBytes, readLength]
  exact smlBufGetNextLength_tlBytes typed some four few fits before after

/-- A length that is kept is read from its header. -/
theorem reads_header {type : UInt8} (typed : type ∈ fieldTypes) {l : Nat}
    (small : l < 2 ^ 28 - 8) (kept : LengthKept type l) :
    Reads smlBufGetNextLength (header type l) l := by
  -- What is read of any header is what its groups extend to.
  intro before after _
  rw [smlBufGetNextLength_header typed small, (readLength_eq_iff small).mpr kept]

end RoundTrip

end OpenwrtMisc.Libsml
