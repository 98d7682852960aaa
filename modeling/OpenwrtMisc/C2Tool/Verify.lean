import OpenwrtMisc.C2Tool.Flash
import OpenwrtMisc.Lib.Ring

/-! Verification of a file against the flash, section by section and chunk by chunk. -/

namespace OpenwrtMisc.C2Tool

/-- The target and the counter of errors, which the callback changes. -/
structure Verify where
  target : Target
  errctr : BitVec 32

/-- The size of the buffer that a chunk is read into. -/
def verifyChunk (size : Nat) : Nat := if size > 256 then 256 else size

/-- A chunk takes at least one byte, and no more than there are. -/
theorem verifyChunk_bounds {size : Nat} (positive : size ≠ 0) :
    0 < verifyChunk size ∧ verifyChunk size ≤ size := by
  -- A chunk of 256 bytes, or what is left.
  unfold verifyChunk
  split <;> omega

/-- The loop of `verify_section`, which returns when a chunk cannot be read. -/
def verifyLoop (flashAddr : Nat) (data : List UInt8) (state : Verify) : Verify :=
  if _ : data.length = 0 then state
  else
    let chunk := verifyChunk data.length
    match c2FlashRead flashAddr chunk state.target with
    -- The section is left without counting an error.
    | (none, target) => { state with target := target }
    | (some buf, target) =>
      let errctr := if data.take chunk ≠ buf then state.errctr + 1 else state.errctr
      verifyLoop ((flashAddr + chunk) % 2 ^ 32) (data.drop chunk)
        { target := target, errctr := errctr }
  termination_by data.length
  decreasing_by
    have bounds := verifyChunk_bounds (by assumption)
    rw [List.length_drop]
    omega

/-- `verify_section`. -/
def verifySection (offset : Nat) (state : Verify) (isection : Section) : Verify :=
  -- Nor is one counted when the contents cannot be read from the file.
  if isection.readable then verifyLoop (isection.flashAddr offset) isection.data state else state

/-- `EINVAL`. -/
def einval : Int := 22

/-- `c2_verify_file`, whose file may not open, or not be an object file. -/
def c2VerifyFile (opens object : Bool) (offset : Nat) (sections : List Section) (target : Target) :
    Int × Target :=
  if opens = false then (-einval, target)
  else if object = false then (-einval, target)
  else
    let last := sections.foldl (verifySection offset) { target := target, errctr := 0 }
    (if last.errctr ≠ 0 then -einval else 0, last.target)

/--
The chunks of a section as the transfers let them be read: equal to the file's, different, or,
for the last one, not read at all.
-/
def chunkOutcomes (flashAddr : Nat) (data : List UInt8) (target : Target) :
    List (Option Bool) × Target :=
  if _ : data.length = 0 then ([], target)
  else
    let chunk := verifyChunk data.length
    match c2FlashRead flashAddr chunk target with
    | (none, target) => ([none], target)
    | (some buf, target) =>
      let rest := chunkOutcomes ((flashAddr + chunk) % 2 ^ 32) (data.drop chunk) target
      (some (decide (data.take chunk = buf)) :: rest.1, rest.2)
  termination_by data.length
  decreasing_by
    have bounds := verifyChunk_bounds (by assumption)
    rw [List.length_drop]
    omega

/-- The chunks of a section, none of which is read when its contents are not. -/
def sectionOutcomes (offset : Nat) (isection : Section) (target : Target) :
    List (Option Bool) × Target :=
  if isection.readable then chunkOutcomes (isection.flashAddr offset) isection.data target
  else (if isection.data = [] then [] else [none], target)

/-- The chunks of all sections, one after the other. -/
def fileOutcomes (offset : Nat) : List Section → Target → List (Option Bool)
  | [], _ => []
  | isection :: rest, target =>
    let first := sectionOutcomes offset isection target
    first.1 ++ fileOutcomes offset rest first.2

/-- Every byte of every section was read back, and is the byte of the file. -/
structure Verified (offset : Nat) (sections : List Section) (target : Target) : Prop where
  readBack : none ∉ fileOutcomes offset sections target
  equal : ∀ isection ∈ sections, ∀ i (inside : i < isection.data.length),
    isection.flashAddr offset + i < flashSize ∧
      target.flash (isection.flashAddr offset + i) = isection.data[i]

/-- The sections that have bytes lie within the flash. -/
def WithinFlash (offset : Nat) (sections : List Section) : Prop :=
  ∀ isection ∈ sections, isection.data ≠ [] →
    isection.flashAddr offset + isection.data.length ≤ flashSize

/-- The counter of errors counts the chunks that are different, as far as it can. -/
theorem verifyLoop_outcomes (length : Nat) :
    ∀ (flashAddr : Nat) (data : List UInt8) (state : Verify), data.length = length →
      verifyLoop flashAddr data state =
        { target := (chunkOutcomes flashAddr data state.target).2
          errctr := state.errctr + BitVec.ofNat 32
            ((chunkOutcomes flashAddr data state.target).1.count (some false)) } := by
  -- The loop and the list of outcomes take the same turns.
  induction length using Nat.strongRecOn with
  | _ length ih =>
    intro flashAddr data state size
    rw [verifyLoop, chunkOutcomes]
    by_cases empty : data.length = 0
    · rw [dif_pos empty, dif_pos empty]
      exact congrArg (Verify.mk state.target) (BitVec.add_zero _).symm
    · obtain ⟨positive, fits⟩ := verifyChunk_bounds empty
      rw [dif_neg empty, dif_neg empty]
      cases read : c2FlashRead flashAddr (verifyChunk data.length) state.target with
      | mk buf target =>
        cases buf with
        | none =>
          simp only [read]
          exact congrArg (Verify.mk target) (BitVec.add_zero _).symm
        | some buf =>
          have shorter : (data.drop (verifyChunk data.length)).length < length := by
            rw [List.length_drop]
            omega
          simp only [read]
          rw [ih _ shorter _ _ _ rfl]
          generalize chunkOutcomes ((flashAddr + verifyChunk data.length) % 2 ^ 32)
            (data.drop (verifyChunk data.length)) target = rest
          -- A different chunk counts one, before or after the rest is counted.
          by_cases same : data.take (verifyChunk data.length) = buf
          · rw [if_neg (not_not.mpr same), decide_eq_true same, List.count_cons_of_ne (by decide)]
          · rw [if_pos same, decide_eq_false same, List.count_cons_self, Nat.add_comm,
              BitVec.ofNat_add, BitVec.add_assoc]
            rfl

/-- The counter of errors counts the different chunks of a section. -/
theorem verifySection_outcomes (offset : Nat) (state : Verify) (isection : Section) :
    verifySection offset state isection =
      { target := (sectionOutcomes offset isection state.target).2
        errctr := state.errctr + BitVec.ofNat 32
          ((sectionOutcomes offset isection state.target).1.count (some false)) } := by
  rw [verifySection, sectionOutcomes]
  by_cases readable : isection.readable = true
  · rw [if_pos readable, if_pos readable]
    exact verifyLoop_outcomes _ _ _ _ rfl
  · rw [if_neg readable, if_neg readable]
    -- Contents that cannot be read are not counted as an error.
    have uncounted : (if isection.data = [] then [] else [(none : Option Bool)]).count
        (some false) = 0 := by
      split <;> rfl
    rw [uncounted]
    exact congrArg (Verify.mk state.target) (BitVec.add_zero _).symm

/-- The counter of errors counts the different chunks of a file. -/
theorem foldl_verifySection_errctr (offset : Nat) (sections : List Section) (state : Verify) :
    (sections.foldl (verifySection offset) state).errctr =
      state.errctr +
        BitVec.ofNat 32 ((fileOutcomes offset sections state.target).count (some false)) := by
  induction sections generalizing state with
  | nil => exact (BitVec.add_zero _).symm
  | cons isection rest ih =>
    -- The count of two parts of the list is the sum of their counts, wrapped or not.
    rw [List.foldl_cons, ih, verifySection_outcomes, fileOutcomes, List.count_append,
      BitVec.ofNat_add, BitVec.add_assoc]

/-- A block command that succeeds has left the target at the first of the bytes to read. -/
theorem blockCommand_some {addr length : Nat} {before after : Target} {value : Unit}
    (idle : before.phase = .idle) (positive : length ≠ 0)
    (ran : blockCommand fpdatBlockRead addr length before = (some value, after)) :
    after.Like { before with phase := .reading (addr % flashSize) (blocksize length) } := by
  -- A command that succeeds is one whose four transfers do.
  obtain ⟨_, first, command, ran⟩ := C2.bind_eq_some ran
  obtain ⟨_, second, high, ran⟩ := C2.bind_eq_some ran
  obtain ⟨_, third, low, count⟩ := C2.bind_eq_some ran
  -- The target takes the four bytes as if no transfer could fail.
  have opened : before.receive fpdatBlockRead = { before with phase := .block false [] } := by
    simp [Target.receive, idle]
  have like := c2PiCommand_some command
  rw [opened] at like
  have all := (c2PiCommand_some count).trans
    (((c2PiCommand_some low).trans
      (((c2PiCommand_some high).trans (like.receive _)).receive _)).receive _)
  simp only [Target.receive, List.nil_append, List.cons_append, addressBytes_mod,
    blockLength_lengthByte positive] at all
  exact all

/-- A block that is read holds the cells from its address on, within the flash. -/
theorem readBlock_some (count : Nat) :
    ∀ {address : Nat} {before after : Target} {buf : List UInt8}, address < flashSize →
      before.phase = .more (.reading address) count →
      readBlock count before = (some buf, after) →
      buf = ringContents flashSize before.flash address count ∧
        after.Like { before with phase := .idle } := by
  -- The induction follows the loop, which goes round at the end of the flash.
  induction count with
  | zero =>
    intro address before after buf _ phase ran
    have ended : (some [], before) = (some buf, after) := ran
    simp only [Prod.mk.injEq, Option.some.injEq] at ended
    obtain ⟨rfl, rfl⟩ := ended
    exact ⟨rfl, rfl, rfl, phase⟩
  | succ count ih =>
    intro address before after buf inside phase ran
    rw [readBlock] at ran
    obtain ⟨data, between, got, ran⟩ := C2.bind_eq_some ran
    obtain ⟨rest, last, more, ended⟩ := C2.bind_eq_some ran
    have done : (some (data :: rest), last) = (some buf, after) := ended
    simp only [Prod.mk.injEq, Option.some.injEq] at done
    obtain ⟨rfl, rfl⟩ := done
    -- The byte that is got is the one that the target sends for its address.
    obtain ⟨value, like⟩ := c2PiGetData_some got
    have sent : before.send =
        (before.flash address,
          { before with phase := .more (.reading (nextAddress address)) count }) := by
      simp only [Target.send, phase, Phase.more, Nat.add_sub_cancel]
    rw [sent] at value like
    have next : nextAddress address < flashSize := Nat.mod_lt _ (by decide)
    obtain ⟨cells, final⟩ := ih next like.phase more
    -- The target goes on at address 0 behind the last cell.
    have round : nextAddress address % flashSize = (address + 1) % flashSize := Nat.mod_mod _ _
    refine ⟨?_, ?_⟩
    · rw [ringContents_succ, Nat.mod_eq_of_lt inside, value, cells, like.flash,
        ringContents_congr round]
    · exact final.trans ⟨like.flash, like.pageSize, rfl⟩

/-- `c2_flash_read` that succeeds has read the cells at its address, and leaves them alone. -/
theorem c2FlashRead_some (length : Nat) :
    ∀ {addr : Nat} {before after : Target} {buf : List UInt8}, before.phase = .idle →
      c2FlashRead addr length before = (some buf, after) →
      buf = ringContents flashSize before.flash addr length ∧ after.Like before := by
  -- The induction is on the length, which gets shorter by a block.
  induction length using Nat.strongRecOn with
  | _ length ih =>
    intro addr before after buf idle ran
    rw [c2FlashRead] at ran
    by_cases empty : length = 0
    · rw [dif_pos empty] at ran
      have ended : (some [], before) = (some buf, after) := ran
      simp only [Prod.mk.injEq, Option.some.injEq] at ended
      obtain ⟨rfl, rfl⟩ := ended
      rw [empty]
      exact ⟨rfl, Target.Like.refl _⟩
    · obtain ⟨positive, fits⟩ := blocksize_bounds empty
      rw [dif_neg empty] at ran
      obtain ⟨_, opened, command, ran⟩ := C2.bind_eq_some ran
      obtain ⟨block, between, read, ran⟩ := C2.bind_eq_some ran
      obtain ⟨rest, last, more, ended⟩ := C2.bind_eq_some ran
      have done : (some (block ++ rest), last) = (some buf, after) := ended
      simp only [Prod.mk.injEq, Option.some.injEq] at done
      obtain ⟨rfl, rfl⟩ := done
      -- The block is read from the address as the target has it, the rest from behind the block.
      have started := blockCommand_some idle empty command
      have phase : opened.phase = .more (.reading (addr % flashSize)) (blocksize length) := by
        rw [started.phase, more_pos positive]
      obtain ⟨first, middle⟩ := readBlock_some (blocksize length)
        (Nat.mod_lt _ (by decide)) phase read
      obtain ⟨second, final⟩ := ih (length - blocksize length) (by omega) middle.phase more
      have flash : between.flash = before.flash := middle.flash.trans started.flash
      -- The address wraps at 32 bits, a multiple of the size of the flash.
      have start : addr % flashSize % flashSize = addr % flashSize := Nat.mod_mod _ _
      have next : (addr + blocksize length) % 2 ^ 32 % flashSize =
          (addr + blocksize length) % flashSize := Nat.mod_mod_of_dvd _ (by decide)
      have whole : length = blocksize length + (length - blocksize length) := by omega
      refine ⟨?_, ?_⟩
      · rw [first, second, started.flash, flash, ringContents_congr start, ringContents_congr next,
          ← ringContents_append, ← whole]
      · exact final.trans
          ⟨flash, middle.pageSize.trans started.pageSize, middle.phase.trans idle.symm⟩

/-- When all chunks are read, they are equal just when the data is that of the flash. -/
theorem chunkOutcomes_equal (length : Nat) :
    ∀ {flashAddr : Nat} {data : List UInt8} {target : Target}, data.length = length →
      target.phase = .idle → none ∉ (chunkOutcomes flashAddr data target).1 →
      (chunkOutcomes flashAddr data target).2.Like target ∧
        (some false ∉ (chunkOutcomes flashAddr data target).1 ↔
          data = ringContents flashSize target.flash flashAddr data.length) := by
  -- The induction is on the length, which gets shorter by a chunk.
  induction length using Nat.strongRecOn with
  | _ length ih =>
    intro flashAddr data target size idle all
    rw [chunkOutcomes] at all ⊢
    by_cases empty : data.length = 0
    · rw [dif_pos empty, List.length_eq_zero_iff.mp empty]
      exact ⟨Target.Like.refl _, fun _ => rfl, fun _ => List.not_mem_nil⟩
    · obtain ⟨positive, fits⟩ := verifyChunk_bounds empty
      rw [dif_neg empty] at all ⊢
      cases read : c2FlashRead flashAddr (verifyChunk data.length) target with
      | mk buf after =>
        cases buf with
        | none =>
          simp only [read] at all
          exact absurd List.mem_cons_self all
        | some buf =>
          simp only [read, List.mem_cons, not_or] at all ⊢
          obtain ⟨cells, like⟩ := c2FlashRead_some _ idle read
          have shorter : (data.drop (verifyChunk data.length)).length < length := by
            rw [List.length_drop]
            omega
          obtain ⟨later, equal⟩ := ih _ shorter rfl (like.phase.trans idle) all.2
          refine ⟨later.trans like, ?_⟩
          rw [equal, like.flash]
          have length : buf.length = verifyChunk data.length := by
            rw [cells, length_ringContents]
          -- The next chunk of the flash starts where this one ended, wrap or no wrap.
          have next : (flashAddr + verifyChunk data.length) % 2 ^ 32 % flashSize =
              (flashAddr + verifyChunk data.length) % flashSize :=
            Nat.mod_mod_of_dvd _ (by decide)
          have split : ringContents flashSize target.flash flashAddr data.length =
              buf ++ ringContents flashSize target.flash
                ((flashAddr + verifyChunk data.length) % 2 ^ 32)
                (data.drop (verifyChunk data.length)).length := by
            have whole : data.length = verifyChunk data.length +
              (data.length - verifyChunk data.length) := by omega
            rw [cells, ringContents_congr next, List.length_drop, ← ringContents_append, ← whole]
          rw [split]
          generalize ringContents flashSize target.flash
            ((flashAddr + verifyChunk data.length) % 2 ^ 32)
            (data.drop (verifyChunk data.length)).length = rest
          -- The data is equal when its first chunk is, and the rest of it.
          constructor
          · intro parts
            have first : data.take (verifyChunk data.length) = buf := by
              by_contra different
              exact parts.1 (by rw [decide_eq_false different])
            rw [← first, ← parts.2, List.take_append_drop]
          · intro same
            have first : data.take (verifyChunk data.length) = buf := by
              rw [← length, same, List.take_left]
            refine ⟨?_, ?_⟩
            · rw [decide_eq_true first]
              exact fun wrong => nomatch wrong
            · rw [← length, same, List.drop_left]

/-- When a section is read, its chunks are equal just when its data is that of the flash. -/
theorem sectionOutcomes_equal (offset : Nat) (isection : Section) {target : Target}
    (idle : target.phase = .idle) (all : none ∉ (sectionOutcomes offset isection target).1) :
    (sectionOutcomes offset isection target).2.Like target ∧
      (some false ∉ (sectionOutcomes offset isection target).1 ↔ isection.data =
        ringContents flashSize target.flash (isection.flashAddr offset) isection.data.length) := by
  rw [sectionOutcomes] at all ⊢
  by_cases readable : isection.readable = true
  · rw [if_pos readable] at all ⊢
    exact chunkOutcomes_equal _ rfl idle all
  · rw [if_neg readable] at all ⊢
    -- A section that cannot be read has one outcome, that of a failure, if it has any data.
    by_cases empty : isection.data = []
    · rw [empty]
      exact ⟨Target.Like.refl _, fun _ => rfl, fun _ => List.not_mem_nil⟩
    · rw [if_neg empty] at all
      exact absurd List.mem_cons_self all

/-- When all sections are read, their chunks are equal just when their data is that of the flash. -/
theorem fileOutcomes_equal (offset : Nat) (sections : List Section) :
    ∀ {target : Target}, target.phase = .idle → none ∉ fileOutcomes offset sections target →
      (some false ∉ fileOutcomes offset sections target ↔
        ∀ isection ∈ sections, isection.data =
          ringContents flashSize target.flash (isection.flashAddr offset)
            isection.data.length) := by
  induction sections with
  | nil =>
    exact fun _ _ => ⟨fun _ _ none => absurd none List.not_mem_nil, fun _ => List.not_mem_nil⟩
  | cons isection rest ih =>
    intro target idle all
    simp only [fileOutcomes, List.mem_append, not_or] at all ⊢
    -- Reading one section leaves the flash as it was for the next one.
    obtain ⟨like, equal⟩ := sectionOutcomes_equal offset isection idle all.1
    have later := ih (like.phase.trans idle) all.2
    rw [equal, later, like.flash, List.forall_mem_cons]

/-- A target that waits for a command, and whose transfers fail as they like. -/
def Target.waiting (pageSize : Nat) (flash : Nat → UInt8) (fails : Nat → Bool) : Target where
  flash := flash
  pageSize := pageSize
  phase := .idle
  fails := fails

end OpenwrtMisc.C2Tool
