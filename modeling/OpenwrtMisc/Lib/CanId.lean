import OpenwrtMisc.Lib.BitMask

/-! The identifier word of a CAN frame: eleven or twenty-nine bits, and the flags above them. -/

namespace OpenwrtMisc.CanId

open BitMask

/-- The flags of an extended identifier, of a remote frame, and of an error frame. -/
def effFlag : BitVec 32 := 0x80000000
def rtrFlag : BitVec 32 := 0x40000000
def errFlag : BitVec 32 := 0x20000000

/-- The word of a data or remote frame: a standard identifier has no extended bits. -/
structure Valid (id : BitVec 32) : Prop where
  noError : id &&& errFlag = 0
  standard : id &&& effFlag = 0 → id &&& span 11 18 = 0

/-- A flag that is set is what the word and the flag have in common. -/
theorem and_effFlag {id : BitVec 32} (extended : id &&& effFlag ≠ 0) : id &&& effFlag = effFlag :=
  and_bit_of_ne_zero (show id &&& bit 31 ≠ 0 from extended)

/-- So it is for the flag of a remote frame. -/
theorem and_rtrFlag {id : BitVec 32} (remote : id &&& rtrFlag ≠ 0) : id &&& rtrFlag = rtrFlag :=
  and_bit_of_ne_zero (show id &&& bit 30 ≠ 0 from remote)

/-- The bits of the identifier and the flag of its format. -/
def format (id : BitVec 32) : BitVec 32 :=
  id &&& (if id &&& effFlag ≠ 0 then span 0 29 else span 0 11) ||| id &&& effFlag

/-- A valid word is its format and the remote flag. -/
theorem Valid.eq_format {id : BitVec 32} (valid : Valid id) :
    id = format id ||| id &&& rtrFlag := by
  -- The other bits are the error flag and, in a standard identifier, the extended ones.
  have whole : id =
      (id &&& span 0 11 ||| id &&& span 11 18) |||
        (id &&& errFlag ||| (id &&& effFlag ||| id &&& rtrFlag)) := by
    rw [← BitVec.and_or_distrib_left, ← BitVec.and_or_distrib_left, ← BitVec.and_or_distrib_left,
      ← BitVec.and_or_distrib_left]
    have all : (span 0 11 ||| span 11 18 ||| (errFlag ||| (effFlag ||| rtrFlag)) : BitVec 32) =
        BitVec.allOnes 32 := by decide
    rw [all, BitVec.and_allOnes]
  have joined : (span 0 11 ||| span 11 18 : BitVec 32) = span 0 29 := by decide
  have zeroOr : ∀ word : BitVec 32, 0 ||| word = word := fun _ => BitVec.zero_or
  have orZero : ∀ word : BitVec 32, word ||| 0 = word := fun _ => BitVec.or_zero
  rw [valid.noError, zeroOr] at whole
  rw [format, BitVec.or_assoc]
  by_cases standard : id &&& effFlag = 0
  · rw [if_neg (not_not_intro standard)]
    rwa [valid.standard standard, orZero] at whole
  · rw [if_pos standard]
    rwa [← BitVec.and_or_distrib_left, joined] at whole

/-- A valid word is put together from its format, and from the remote flag if it has that. -/
theorem Valid.format_or {id : BitVec 32} (valid : Valid id) :
    (if id &&& rtrFlag ≠ 0 then format id ||| rtrFlag else format id) = id := by
  -- The remote flag is not part of the format.
  have whole := valid.eq_format
  by_cases remote : id &&& rtrFlag ≠ 0
  · -- The part of the remote flag is the flag itself or nothing.
    rw [and_rtrFlag remote] at whole
    rw [if_pos remote]
    exact whole.symm
  · rw [not_not.mp remote] at whole
    rw [if_neg remote]
    exact (whole.trans BitVec.or_zero).symm

/-- The format of an extended identifier is its bits and the flag. -/
theorem format_extended {id : BitVec 32} (extended : id &&& effFlag ≠ 0) :
    format id = id &&& span 0 29 ||| effFlag := by
  rw [format, if_pos extended, and_effFlag extended]

/-- The format of a standard identifier is its bits. -/
theorem format_standard {id : BitVec 32} (standard : id &&& effFlag = 0) :
    format id = id &&& span 0 11 := by
  -- Without the flag of the extended format eleven bits are left.
  rw [format, if_neg (not_not_intro standard), standard]
  exact BitVec.or_zero

end OpenwrtMisc.CanId
