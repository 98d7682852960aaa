import OpenwrtMisc.C2Tool.Dialogue
import OpenwrtMisc.C2Tool.Verify

/-! When a file that verifies is in the flash: by the flash, the file and the failing transfers. -/

namespace OpenwrtMisc.C2Tool

/-- A chunk of a section: its address, and its bytes as the file has them. -/
structure Chunk where
  addr : Nat
  data : List UInt8
  deriving DecidableEq, Repr

/-- The number of transfers that a chunk is read in. -/
def Chunk.transfers (chunk : Chunk) : Nat := 12 + 2 * chunk.data.length

/-- What the transfers of a chunk do at the target. -/
def Chunk.moves (chunk : Chunk) : List Move := readMoves chunk.addr chunk.data.length

/-- The flash has other bytes than the file where a chunk belongs. -/
def Chunk.Differs (flash : Nat → UInt8) (chunk : Chunk) : Prop :=
  chunk.data ≠ ringContents flashSize flash chunk.addr chunk.data.length

/-- Whether a chunk differs can be computed. -/
instance (flash : Nat → UInt8) (chunk : Chunk) : Decidable (chunk.Differs flash) :=
  inferInstanceAs (Decidable (_ ≠ _))

/-- The chunks of bytes that belong at an address, of which only the last may be short. -/
def chunksFrom (addr : Nat) (data : List UInt8) : List Chunk :=
  (List.range ((data.length + 255) / 256)).map fun i =>
    { addr := (addr + 256 * i) % 2 ^ 32, data := (data.drop (256 * i)).take 256 }

/-- The chunks of a section, which has none when its contents cannot be read from the file. -/
def Section.chunks (offset : Nat) (isection : Section) : List Chunk :=
  if isection.readable then chunksFrom (isection.flashAddr offset) isection.data else []

/-- The number of transfers in which chunks are read, if none of them fails. -/
def readTransfers (chunks : List Chunk) : Nat := (chunks.map Chunk.transfers).sum

/-- A chunk that is asked for, with the number of its transfers that succeed. -/
structure Attempt where
  chunk : Chunk
  good : Nat

/-- An attempt that gets through is one of which no transfer fails. -/
def Attempt.Through (attempt : Attempt) : Prop := attempt.good = attempt.chunk.transfers

/-- Whether an attempt gets through can be computed. -/
instance (attempt : Attempt) : Decidable attempt.Through := inferInstanceAs (Decidable (_ = _))

/--
The chunks of a section that are asked for, the first of which takes the first transfer.

The section is left behind a transfer that fails, and the transfers of the next one come then.
-/
def attempts (fails : Nat → Bool) : List Chunk → List Attempt × (Nat → Bool)
  | [] => ([], fails)
  | chunk :: rest =>
    let good := succeeding fails chunk.transfers
    if good = chunk.transfers then
      let later := attempts (fun n => fails (good + n)) rest
      (⟨chunk, good⟩ :: later.1, later.2)
    else ([⟨chunk, good⟩], fun n => fails (good + 1 + n))

/-- The chunks of all sections that are asked for. -/
def fileAttempts (fails : Nat → Bool) : List (List Chunk) → List Attempt
  | [] => []
  | chunks :: rest =>
    let first := attempts fails chunks
    first.1 ++ fileAttempts first.2 rest

/--
The number of attempts that get through, and in which the target offers other bytes than the file's.

An attempt that does not get through still leaves the target where its last transfer brought it.
-/
def differing : List Attempt → Target → Nat
  | [], _ => 0
  | attempt :: rest, target =>
    let met := target.meet (attempt.chunk.moves.take attempt.good)
    (if attempt.Through ∧ met.1 ≠ attempt.chunk.data then 1 else 0) + differing rest met.2

/-- The first chunk comes off the front of bytes that are not all gone. -/
theorem chunksFrom_cons {addr : Nat} {data : List UInt8} (small : addr < 2 ^ 32)
    (nonempty : data.length ≠ 0) :
    chunksFrom addr data = ⟨addr, data.take (verifyChunk data.length)⟩ ::
      chunksFrom ((addr + verifyChunk data.length) % 2 ^ 32)
        (data.drop (verifyChunk data.length)) := by
  -- The chunks are counted from the front.
  unfold verifyChunk
  split
  · -- A full chunk leaves one less to come.
    rename_i long
    have count : (data.length + 255) / 256 = (data.length - 256 + 255) / 256 + 1 := by omega
    rw [chunksFrom, chunksFrom, List.length_drop, count, List.range_succ_eq_map, List.map_cons,
      List.map_map]
    congr 1
    · simpa using small
    · apply List.map_congr_left
      intro i _
      have place : 256 * (i + 1) = 256 + 256 * i := by omega
      simp only [Function.comp_apply, Nat.succ_eq_add_one, place, List.drop_drop, Nat.mod_add_mod,
        Nat.add_assoc]
  · -- What is no longer than a chunk is the last one.
    rename_i short
    have one : (data.length + 255) / 256 = 1 := by omega
    have whole : data.take 256 = data := List.take_of_length_le (by omega)
    simpa [chunksFrom, one, List.range_succ, whole] using small

/-- A chunk has bytes, and not more than a block. -/
theorem of_mem_chunksFrom {addr : Nat} {data : List UInt8} {chunk : Chunk}
    (member : chunk ∈ chunksFrom addr data) :
    chunk.data.length ≠ 0 ∧ chunk.data.length ≤ 256 := by
  -- The chunk starts in front of the end of the data.
  obtain ⟨i, below, rfl⟩ := List.mem_map.mp member
  have inside := List.mem_range.mp below
  simp only [List.length_take, List.length_drop]
  omega

/-- Nothing is read of no bytes. -/
theorem chunksFrom_nil {addr : Nat} {data : List UInt8} (empty : data.length = 0) :
    chunksFrom addr data = [] := by
  simp [chunksFrom, empty]

/-- What comes of the chunks of a section, and the target after them. -/
def outcomes : List Chunk → Target → List (Option Bool) × Target
  | [], target => ([], target)
  | chunk :: rest, target =>
    let good := succeeding target.fails chunk.transfers
    let met := target.meet (chunk.moves.take good)
    if good = chunk.transfers then
      let later := outcomes rest (met.2.under fun n => target.fails (good + n))
      (some (decide (chunk.data = met.1)) :: later.1, later.2)
    else ([none], met.2.under fun n => target.fails (good + 1 + n))

/-- A chunk is read when all its transfers succeed, and holds what the target offered. -/
theorem c2FlashRead_chunk {chunk : Chunk} (positive : chunk.data.length ≠ 0)
    (small : chunk.data.length ≤ 256) (target : Target) :
    c2FlashRead chunk.addr chunk.data.length target =
      let good := succeeding target.fails chunk.transfers
      let met := target.meet (chunk.moves.take good)
      if good = chunk.transfers then (some met.1, met.2.under fun n => target.fails (good + n))
      else (none, met.2.under fun n => target.fails (good + 1 + n)) := by
  -- The read is a play of its moves.
  rw [c2FlashRead_eq_play positive small, play_apply, length_readMoves]
  rfl

/-- The loop over a section goes through its chunks. -/
theorem chunkOutcomes_eq_outcomes (length : Nat) :
    ∀ {addr : Nat} {data : List UInt8} (target : Target), data.length = length → addr < 2 ^ 32 →
      chunkOutcomes addr data target = outcomes (chunksFrom addr data) target := by
  -- The induction is on the length, which gets shorter by a chunk.
  induction length using Nat.strongRecOn with
  | _ length ih =>
    intro addr data target size small
    rw [chunkOutcomes]
    by_cases empty : data.length = 0
    · rw [dif_pos empty, chunksFrom_nil empty]
      rfl
    · obtain ⟨positive, fits⟩ := verifyChunk_bounds empty
      have block : verifyChunk data.length ≤ 256 := by
        unfold verifyChunk
        split <;> omega
      -- The chunk at the front is as long as the buffer, or all that is left.
      have taken : (data.take (verifyChunk data.length)).length = verifyChunk data.length := by
        rw [List.length_take]
        omega
      have shorter : (data.drop (verifyChunk data.length)).length < length := by
        rw [List.length_drop]
        omega
      have later := fun target => ih _ shorter target rfl
        (Nat.mod_lt (addr + verifyChunk data.length) (by decide : 2 ^ 32 > 0))
      rw [dif_neg empty, chunksFrom_cons small empty]
      obtain ⟨chunk, given⟩ : ∃ chunk,
        chunk = Chunk.mk addr (data.take (verifyChunk data.length)) := ⟨_, rfl⟩
      have bytes : data.take (verifyChunk data.length) = chunk.data := by rw [given]
      have size : chunk.data.length = verifyChunk data.length := by rw [← bytes, taken]
      have place : addr = chunk.addr := by rw [given]
      have positive : chunk.data.length ≠ 0 := by omega
      have read := c2FlashRead_chunk positive (by omega) target
      rw [← given, place, ← size]
      -- The chunk is read, or it is the last one that is asked for.
      by_cases through : succeeding target.fails chunk.transfers = chunk.transfers
      · have ran := read.trans (if_pos through)
        have first : outcomes (chunk :: chunksFrom ((chunk.addr + chunk.data.length) % 2 ^ 32)
            (data.drop chunk.data.length)) target = _ := if_pos through
        simp only [ran, first]
        rw [size, bytes, ← place, later]
      · have ran := read.trans (if_neg through)
        have first : outcomes (chunk :: chunksFrom ((chunk.addr + chunk.data.length) % 2 ^ 32)
            (data.drop chunk.data.length)) target = _ := if_neg through
        simp only [ran, first]

/-- A section gives the outcomes of its chunks, and one more when its contents cannot be read. -/
theorem sectionOutcomes_eq (offset : Nat) (isection : Section) (target : Target) :
    sectionOutcomes offset isection target =
      ((outcomes (isection.chunks offset) target).1 ++
          (if isection.readable ∨ isection.data = [] then [] else [none]),
        (outcomes (isection.chunks offset) target).2) := by
  -- A section that cannot be read has no chunk, and one outcome when there is something in it.
  rw [sectionOutcomes, Section.chunks]
  by_cases readable : isection.readable = true
  · have place : isection.flashAddr offset < 2 ^ 32 := Nat.mod_lt _ (by decide)
    rw [if_pos readable, if_pos readable, if_pos (Or.inl readable), List.append_nil]
    exact chunkOutcomes_eq_outcomes _ _ rfl place
  · -- Without its contents the section has no chunks, and nothing reaches the target.
    rw [if_neg readable, if_neg readable]
    simp [outcomes, readable]

/-- The fate of the transfers is not looked at once the attempts are known. -/
theorem differing_under (asked : List Attempt) :
    ∀ (target : Target) (fails : Nat → Bool),
      differing asked (target.under fails) = differing asked target := by
  -- The induction is on the attempts.
  induction asked with
  | nil => exact fun _ _ => rfl
  | cons attempt rest ih =>
    intro target fails
    simp only [differing, Target.meet_under, ih]

/-- The chunks of a section count as their attempts do, which leave the same transfers. -/
theorem outcomes_attempts (chunks : List Chunk) :
    ∀ (target : Target) (later : List Attempt),
      differing ((attempts target.fails chunks).1 ++ later) target =
          (outcomes chunks target).1.count (some false) +
            differing later (outcomes chunks target).2 ∧
        (outcomes chunks target).2.fails = (attempts target.fails chunks).2 := by
  -- The induction is on the chunks, the first of which is read or is the last one.
  induction chunks with
  | nil => exact fun target later => ⟨(Nat.zero_add _).symm, rfl⟩
  | cons chunk rest ih =>
    intro target later
    rw [attempts, outcomes]
    obtain ⟨met, given⟩ : ∃ met, met =
      target.meet (chunk.moves.take (succeeding target.fails chunk.transfers)) := ⟨_, rfl⟩
    have asked (good : Nat) (same : good = succeeding target.fails chunk.transfers)
        (behind : List Attempt) : differing (⟨chunk, good⟩ :: behind) target =
          (if good = chunk.transfers ∧ met.1 ≠ chunk.data then 1 else 0) +
            differing behind met.2 := by
      rw [given, ← same]
      rfl
    rw [← given]
    by_cases through : succeeding target.fails chunk.transfers = chunk.transfers
    · obtain ⟨counted, fails⟩ := ih
        (met.2.under fun n => target.fails (succeeding target.fails chunk.transfers + n)) later
      rw [differing_under] at counted
      simp only [if_pos through]
      refine ⟨?_, fails⟩
      rw [List.cons_append, asked _ rfl, List.count_cons, Nat.add_right_comm, Nat.add_comm]
      -- The chunk counts when the target offers other bytes.
      refine congr (congrArg _ counted) ?_
      by_cases same : chunk.data = met.1
      · simp [same]
      · simp [same, Ne.symm same, through]
    · -- The attempt that fails counts for nothing, and is the last one of the section.
      simp only [if_neg through]
      refine ⟨?_, rfl⟩
      rw [List.cons_append, asked _ rfl, if_neg fun both => through both.1, differing_under]
      rfl

/-- The chunks that are read and different are as many as the attempts say. -/
theorem fileOutcomes_differing (offset : Nat) (sections : List Section) :
    ∀ target : Target, (fileOutcomes offset sections target).count (some false) =
      differing (fileAttempts target.fails (sections.map (Section.chunks offset))) target := by
  -- The induction is on the sections.
  induction sections with
  | nil => exact fun _ => rfl
  | cons isection rest ih =>
    intro target
    have section_ := outcomes_attempts (isection.chunks offset) target
    rw [fileOutcomes, List.map_cons, fileAttempts, (section_ _).1, ← (section_ []).2, ← ih,
      List.count_append, sectionOutcomes_eq, List.count_append]
    -- What cannot be read from the file is not counted.
    have none : (if isection.readable ∨ isection.data = [] then []
        else [(none : Option Bool)]).count (some false) = 0 := by
      split <;> rfl
    rw [none, Nat.add_zero]

/-- The chunks of a section have bytes, and not more than a block. -/
theorem of_mem_sectionChunks {offset : Nat} {isection : Section} {chunk : Chunk}
    (member : chunk ∈ isection.chunks offset) :
    chunk.data.length ≠ 0 ∧ chunk.data.length ≤ 256 := by
  -- A section that cannot be read has no chunk.
  unfold Section.chunks at member
  split at member
  · exact of_mem_chunksFrom member
  · exact absurd member List.not_mem_nil

/-- A chunk that gets through holds what the flash has where it belongs. -/
theorem meet_chunk {chunk : Chunk} {target : Target} (positive : chunk.data.length ≠ 0)
    (small : chunk.data.length ≤ 256) (idle : target.phase = .idle)
    (through : succeeding target.fails chunk.transfers = chunk.transfers) :
    (target.meet (chunk.moves.take chunk.transfers)).1 =
        ringContents flashSize target.flash chunk.addr chunk.data.length ∧
      (target.meet (chunk.moves.take chunk.transfers)).2.Like target := by
  -- The chunk is read as a whole, so what came back are the cells.
  have read := (c2FlashRead_chunk positive small target).trans (if_pos through)
  obtain ⟨cells, like⟩ := c2FlashRead_some _ idle read
  rw [through] at cells like
  exact ⟨cells, like.flash, like.pageSize, like.phase⟩

/-- When no transfer fails, all chunks are compared with what the flash has where they belong. -/
theorem outcomes_succeed (chunks : List Chunk) :
    ∀ {target : Target},
      (∀ chunk ∈ chunks, chunk.data.length ≠ 0 ∧ chunk.data.length ≤ 256) →
      target.phase = .idle → (∀ n < readTransfers chunks, target.fails n = false) →
      (outcomes chunks target).1 =
          chunks.map (fun chunk => some (decide (¬ chunk.Differs target.flash))) ∧
        (outcomes chunks target).2.Like target ∧
        (outcomes chunks target).2.fails = fun n => target.fails (readTransfers chunks + n) := by
  -- The induction is on the chunks, each of which leaves the flash as it was.
  induction chunks with
  | nil =>
    intro target _ _ _
    refine ⟨rfl, Target.Like.refl _, ?_⟩
    simp [outcomes, readTransfers]
  | cons chunk rest ih =>
    intro target proper idle good
    obtain ⟨⟨positive, small⟩, others⟩ := List.forall_mem_cons.mp proper
    have count : readTransfers (chunk :: rest) = chunk.transfers + readTransfers rest := rfl
    rw [count] at good
    obtain ⟨early, late⟩ := forall_lt_add.mp good
    have through := (succeeding_eq_iff _ _).mpr early
    obtain ⟨cells, like⟩ := meet_chunk positive small idle through
    rw [outcomes]
    simp only [through, if_true]
    generalize target.meet (chunk.moves.take chunk.transfers) = met at cells like
    -- The chunks behind it find the flash as it was, and the target waiting for a command.
    obtain ⟨before, given⟩ : ∃ before, before =
      met.2.under fun n => target.fails (chunk.transfers + n) := ⟨_, rfl⟩
    have same : before.Like target := by
      rw [given]
      exact ⟨like.flash, like.pageSize, like.phase⟩
    have shifted : before.fails = fun n => target.fails (chunk.transfers + n) := by
      rw [given]
      rfl
    obtain ⟨compared, later, fails⟩ := ih others (same.phase.trans idle)
      (by rw [shifted]; exact late)
    rw [← given]
    refine ⟨?_, later.trans same, ?_⟩
    · rw [compared, List.map_cons, cells, same.flash]
      simp only [Chunk.Differs, not_not]
    · rw [fails, shifted, count]
      funext n
      rw [Nat.add_assoc]

/-- Chunks that are all read are ones of which no transfer failed. -/
theorem outcomes_needs (chunks : List Chunk) :
    ∀ {target : Target}, none ∉ (outcomes chunks target).1 →
      (∀ n < readTransfers chunks, target.fails n = false) ∧
        (outcomes chunks target).2.fails = fun n => target.fails (readTransfers chunks + n) := by
  -- The induction is on the chunks, the first of which was read with all of its transfers.
  induction chunks with
  | nil =>
    intro target _
    refine ⟨fun n small => absurd small (Nat.not_lt_zero n), ?_⟩
    simp [outcomes, readTransfers]
  | cons chunk rest ih =>
    intro target all
    have count : readTransfers (chunk :: rest) = chunk.transfers + readTransfers rest := rfl
    rw [outcomes] at all ⊢
    by_cases through : succeeding target.fails chunk.transfers = chunk.transfers
    · simp only [through, if_true, List.mem_cons, not_or] at all ⊢
      obtain ⟨late, fails⟩ := ih all.2
      rw [count]
      refine ⟨forall_lt_add.mpr ⟨(succeeding_eq_iff _ _).mp through, late⟩, ?_⟩
      rw [fails]
      funext n
      simp only [Target.under, Nat.add_assoc]
    · -- A chunk that does not get through is one that is not read.
      simp only [if_neg through] at all
      exact absurd List.mem_cons_self all

/-- The transfers of all sections are those of the first and of the others. -/
theorem readTransfers_append (first second : List Chunk) :
    readTransfers (first ++ second) = readTransfers first + readTransfers second := by
  -- The counts are summed up.
  rw [readTransfers, List.map_append, List.sum_append]
  rfl

/-- What cannot be read from the file shows among the outcomes of its section. -/
theorem none_notMem_unread {isection : Section} :
    none ∉ (if isection.readable ∨ isection.data = [] then [] else [(none : Option Bool)]) ↔
      (isection.data ≠ [] → isection.readable = true) := by
  by_cases readable : isection.readable = true <;> simp [readable]

/-- When no transfer fails, the chunks that are different are those that differ from the flash. -/
theorem fileOutcomes_succeed (offset : Nat) (sections : List Section) :
    ∀ {target : Target}, target.phase = .idle →
      (∀ n < readTransfers (sections.flatMap (Section.chunks offset)), target.fails n = false) →
      (fileOutcomes offset sections target).count (some false) =
          (sections.flatMap (Section.chunks offset)).countP (·.Differs target.flash) ∧
        (none ∉ fileOutcomes offset sections target ↔
          ∀ isection ∈ sections, isection.data ≠ [] → isection.readable = true) := by
  -- The induction is on the sections, each of which takes its own transfers.
  induction sections with
  | nil =>
    intro target _ _
    exact ⟨rfl, fun _ _ member => absurd member List.not_mem_nil, fun _ => List.not_mem_nil⟩
  | cons isection rest ih =>
    intro target idle good
    rw [List.flatMap_cons, readTransfers_append] at good
    obtain ⟨early, late⟩ := forall_lt_add.mp good
    obtain ⟨compared, like, fails⟩ := outcomes_succeed (isection.chunks offset)
      (fun _ => of_mem_sectionChunks) idle early
    have behind : ∀ n < readTransfers (rest.flatMap (Section.chunks offset)),
        (outcomes (isection.chunks offset) target).2.fails n = false := by
      rw [fails]
      exact late
    obtain ⟨counted, read⟩ := ih (like.phase.trans idle) behind
    rw [fileOutcomes, sectionOutcomes_eq]
    refine ⟨?_, ?_⟩
    · -- What cannot be read from the file is not counted.
      have none : (if isection.readable ∨ isection.data = [] then []
          else [(none : Option Bool)]).count (some false) = 0 := by
        split <;> rfl
      have chunks : (outcomes (isection.chunks offset) target).1.count (some false) =
          (isection.chunks offset).countP (·.Differs target.flash) := by
        rw [compared, List.count, List.countP_map]
        apply List.countP_congr
        intro chunk _
        simp
      rw [List.count_append, List.count_append, none, counted, like.flash, List.flatMap_cons,
        List.countP_append, chunks, Nat.add_zero]
    · have found : none ∉ (outcomes (isection.chunks offset) target).1 := by
        rw [compared]
        simp
      rw [List.mem_append, List.mem_append, not_or, not_or, read, none_notMem_unread,
        List.forall_mem_cons, and_iff_right found]

/-- A file that is read back as a whole is one of which no transfer failed. -/
theorem fileOutcomes_needs (offset : Nat) (sections : List Section) :
    ∀ {target : Target}, none ∉ fileOutcomes offset sections target →
      ∀ n < readTransfers (sections.flatMap (Section.chunks offset)), target.fails n = false := by
  -- The induction is on the sections, each of which takes its own transfers.
  induction sections with
  | nil => exact fun _ n small => absurd small (Nat.not_lt_zero n)
  | cons isection rest ih =>
    intro target all
    rw [fileOutcomes, sectionOutcomes_eq, List.mem_append, List.mem_append, not_or, not_or] at all
    obtain ⟨early, fails⟩ := outcomes_needs _ all.1.1
    have late := ih all.2
    rw [fails] at late
    rw [List.flatMap_cons, readTransfers_append]
    exact forall_lt_add.mpr ⟨early, late⟩

/-- The result of a file that opens is zero when the counter of errors is, after its wraps. -/
theorem c2VerifyFile_eq_zero (opens object : Bool) (offset : Nat) (sections : List Section)
    (target : Target) :
    (c2VerifyFile opens object offset sections target).1 = 0 ↔
      opens = true ∧ object = true ∧
        (fileOutcomes offset sections target).count (some false) % 2 ^ 32 = 0 := by
  -- The counter is one of 32 bits.
  have errctr : (sections.foldl (verifySection offset) { target := target, errctr := 0 }).errctr =
      BitVec.ofNat 32 ((fileOutcomes offset sections target).count (some false)) :=
    (foldl_verifySection_errctr offset sections _).trans (BitVec.zero_add _)
  -- The counter is zero again after 2 ^ 32 different chunks.
  have wrapped : BitVec.ofNat 32 ((fileOutcomes offset sections target).count (some false)) = 0 ↔
      (fileOutcomes offset sections target).count (some false) % 2 ^ 32 = 0 := by
    rw [← BitVec.toNat_inj, BitVec.toNat_ofNat]
    rfl
  rw [c2VerifyFile]
  cases opens with
  | false => simp [einval]
  | true =>
    cases object with
    | false => simp [einval]
    | true =>
      simp only [Bool.true_eq_false, if_false, errctr, true_and, ← wrapped]
      split
      · rename_i counted
        exact ⟨fun wrong => absurd wrong (by decide), fun zero => absurd zero counted⟩
      · rename_i uncounted
        exact ⟨fun _ => not_not.mp uncounted, fun _ => rfl⟩

/-- Data that lies within the flash is that of the flash when each of its bytes is. -/
theorem eq_ringContents_iff {addr : Nat} {data : List UInt8} (flash : Nat → UInt8)
    (inside : addr + data.length ≤ flashSize) :
    data = ringContents flashSize flash addr data.length ↔
      ∀ i (short : i < data.length), flash (addr + i) = data[i] := by
  -- The two lists are as long, and are compared byte by byte.
  constructor
  · intro same i short
    -- Within the flash nothing wraps, so the bytes are those of their own addresses.
    have cell := getElem?_ringContents inside flash short
    rw [← same, List.getElem?_eq_getElem short, Option.some.injEq] at cell
    exact cell.symm
  · intro cells
    apply List.ext_getElem?
    intro i
    by_cases short : i < data.length
    · rw [getElem?_ringContents inside flash short, List.getElem?_eq_getElem short, cells i short]
    · rw [List.getElem?_eq_none (Nat.not_lt.mp short), List.getElem?_eq_none]
      rw [length_ringContents]
      exact Nat.not_lt.mp short

/-- A file is verified when all of it is read back and equal, within the flash. -/
theorem verified_iff {offset : Nat} {sections : List Section} {target : Target}
    (idle : target.phase = .idle) :
    Verified offset sections target ↔
      none ∉ fileOutcomes offset sections target ∧
        some false ∉ fileOutcomes offset sections target ∧ WithinFlash offset sections := by
  -- What is read back of a section is the ring of the flash from its address on.
  constructor
  · intro verified
    have within : WithinFlash offset sections := by
      intro isection member nonempty
      -- It is the last byte of the section that has to lie within the flash.
      have positive := List.length_pos_of_ne_nil nonempty
      have last := (verified.equal isection member (isection.data.length - 1) (by omega)).1
      omega
    refine ⟨verified.readBack, ?_, within⟩
    -- A section with no bytes is equal to nothing at any address.
    rw [fileOutcomes_equal offset sections idle verified.readBack]
    intro isection member
    by_cases empty : isection.data = []
    · rw [empty]
      rfl
    · rw [eq_ringContents_iff _ (within isection member empty)]
      exact fun i short => (verified.equal isection member i short).2
  · intro all
    obtain ⟨readBack, same, within⟩ := all
    rw [fileOutcomes_equal offset sections idle readBack] at same
    refine ⟨readBack, ?_⟩
    intro isection member i short
    -- A byte of a section shows that the section has bytes, so it lies within the flash.
    have nonempty : isection.data ≠ [] := List.ne_nil_of_length_pos (by omega)
    have inside := within isection member nonempty
    have cells := (eq_ringContents_iff target.flash inside).mp (same isection member)
    exact ⟨by omega, cells i short⟩

end OpenwrtMisc.C2Tool
