import OpenwrtMisc.C2Tool.Transfers
import OpenwrtMisc.C2Tool.Verify
import OpenwrtMisc.Lib.CString

/-! The flash command: what it returns, and what of a file it has programmed by then. -/

namespace OpenwrtMisc.C2Tool

/-- The setup commands of a family; `C2_DONE` is the end of their list. -/
inductive C2Setupcmd where
  | writeSfr (reg value : UInt8)
  | writeDirect (reg value : UInt8)
  | readSfr (reg : UInt8)
  | readDirect (reg : UInt8)
  | waitUs (time : Nat)

/-- What the flash command uses of a family, whose pages have one of two sizes. -/
structure C2Family where
  pageSize : Nat
  setup : List C2Setupcmd
  pages : PageSize pageSize

/-- A section of an object file, and what happens when its contents are asked for. -/
structure BfdSection where
  lma : Nat
  data : List UInt8
  load : Bool
  /-- Whether there is memory for the contents. -/
  allocates : Bool
  /-- Whether they can then be read from the file. -/
  reads : Bool

/-- Whether `bfd_get_full_section_contents` succeeds. -/
def BfdSection.obtained (isection : BfdSection) : Bool := isection.allocates && isection.reads

/-- The section as the callback sees it. -/
def BfdSection.toSection (isection : BfdSection) : Section where
  lma := isection.lma
  data := isection.data
  readable := isection.obtained

/-- A file that opens: its format may be that of an object file or not. -/
structure Bfd where
  object : Bool
  sections : List BfdSection

/-- What the command depends on besides its arguments and the transfers. -/
structure Host where
  /-- The width of a `long`. -/
  longBits : Nat
  /-- `bfd_openr` with a name and a target. -/
  openr : List UInt8 → Option (List UInt8) → Option Bfd
  /-- What the buffer of `flash_chunk` holds before it is filled. -/
  uninit : Nat → UInt8
  /-- What the special function registers read as. -/
  sfr : UInt8 → UInt8

/-- The loop of `handle_flash` over its arguments, as far as a file name. -/
def flashArgs (longBits : Nat) : List (List UInt8) → Option (List UInt8) → Nat →
    Option (List UInt8 × Option (List UInt8) × Nat)
  | keyword :: value :: next :: rest, target, offset =>
    if keyword = ascii "target" then flashArgs longBits (next :: rest) (some value) offset
    else if keyword = ascii "adjust-start" then
      let (number, behind) := strtoul longBits value
      if behind ≠ [] then none
      else flashArgs longBits (next :: rest) target (number % 2 ^ 32)
    -- The loop is left with three arguments or more, which are too many.
    else none
  | [filename], target, offset => some (filename, target, offset)
  | _, _, _ => none

/-- So many transfers, one after the other. -/
def transfers : Nat → C2 Unit
  | 0 => pure ()
  | count + 1 => do
    transfer
    transfers count

/-- The transfers of a setup command. -/
def C2Setupcmd.transfers : C2Setupcmd → Nat
  -- `c2_write_dr` or `c2_read_dr` of the register.
  | .writeSfr _ _ | .readSfr _ => 1
  -- A command that is checked, and three bytes, or two, a poll and `c2_read_dr`.
  | .writeDirect _ _ | .readDirect _ => 10
  | .waitUs _ => 0

/-- The result of a setup command, which for a read is the value that was read. -/
def C2Setupcmd.value (sfr : UInt8 → UInt8) : C2Setupcmd → Nat
  | .readSfr reg | .readDirect reg => (sfr reg).toNat
  | _ => 0

/-- `process_setupcmd`. -/
def processSetupcmd (sfr : UInt8 → UInt8) (setupcmd : C2Setupcmd) : C2 Nat := do
  transfers setupcmd.transfers
  pure (setupcmd.value sfr)

/-- A call that returns `-EIO`. -/
def C2.error {α : Type} : C2 α := fun target => (none, target)

/-- `c2family_setup`, which goes on while the result is 0. -/
def c2familySetup (sfr : UInt8 → UInt8) : List C2Setupcmd → C2 Unit
  | [] => pure ()
  | setupcmd :: rest => do
    let res ← processSetupcmd sfr setupcmd
    if res = 0 then c2familySetup sfr rest
    -- A register that reads as 1 is taken for the end of the list.
    else if res = 1 then pure ()
    else C2.error

/-- `c2_flash_file`. -/
def c2FlashFile (pageSize : Nat) (uninit : Nat → UInt8) (file : Option Bfd) (offset : Nat)
    (target : Target) : Int × Target :=
  match file with
  | none => (-einval, target)
  | some ibfd =>
    if ibfd.object = false then (-einval, target)
    else (0, flashSections pageSize uninit offset target (ibfd.sections.map BfdSection.toSection))

/-- `EIO`. -/
def eio : Int := 5

/-- `handle_flash`. -/
def handleFlash (host : Host) (family : C2Family) (argv : List (List UInt8)) (target : Target) :
    Int × Target :=
  match flashArgs host.longBits argv none 0 with
  | none => (1, target)
  | some (filename, bfdname, offset) =>
    match c2familySetup host.sfr family.setup target with
    | (none, target) => (-eio, target)
    | (some (), target) =>
      c2FlashFile family.pageSize host.uninit (host.openr filename bfdname) offset target

/-- `flash_chunk` succeeds for one chunk after the other, until nothing of the data is left. -/
inductive ChunksSucceed (pageSize : Nat) (uninit : Nat → UInt8) :
    Nat → List UInt8 → Target → Prop
  | done (flashAddr : Nat) (target : Target) : ChunksSucceed pageSize uninit flashAddr [] target
  | chunk {flashAddr res : Nat} {data : List UInt8} {target after : Target} (left : data ≠ [])
      (succeeds : flashChunk pageSize uninit flashAddr data.length data target = (some res, after))
      (rest : ChunksSucceed pageSize uninit ((flashAddr + res) % 2 ^ 32) (data.drop res) after) :
      ChunksSucceed pageSize uninit flashAddr data target

/-- A section is programmed: its contents are obtained, and every chunk of them succeeds. -/
structure SectionProgrammed (pageSize : Nat) (uninit : Nat → UInt8) (offset : Nat)
    (target : Target) (isection : BfdSection) : Prop where
  obtained : isection.load = true ∨ isection.data ≠ [] → isection.obtained = true
  chunks : ChunksSucceed pageSize uninit (isection.toSection.flashAddr offset) isection.data target

/-- All sections are programmed, each on the target that the ones before it leave. -/
def SectionsProgrammed (pageSize : Nat) (uninit : Nat → UInt8) (offset : Nat) :
    List BfdSection → Target → Prop
  | [], _ => True
  | isection :: rest, target =>
    SectionProgrammed pageSize uninit offset target isection ∧
      SectionsProgrammed pageSize uninit offset rest
        (flashSection pageSize uninit offset target isection.toSection)

/-- The command has programmed every section of the file that its arguments name. -/
def FileProgrammed (host : Host) (family : C2Family) (argv : List (List UInt8))
    (target : Target) : Prop :=
  ∃ filename bfdname offset ibfd after,
    flashArgs host.longBits argv none 0 = some (filename, bfdname, offset) ∧
      host.openr filename bfdname = some ibfd ∧
      c2familySetup host.sfr family.setup target = (some (), after) ∧
      SectionsProgrammed family.pageSize host.uninit offset ibfd.sections after

/-- The number of transfers of a setup, when the values that it reads let it come to its end. -/
def setupTransfers (sfr : UInt8 → UInt8) : List C2Setupcmd → Option Nat
  | [] => some 0
  | setupcmd :: rest =>
    if setupcmd.value sfr = 0 then (setupTransfers sfr rest).map (setupcmd.transfers + ·)
    else if setupcmd.value sfr = 1 then some setupcmd.transfers
    else none

/-- The length of the buffer of `flash_chunk` once the chunk is in it. -/
def bufferLength (pageSize addr length : Nat) : Nat :=
  max pageSize (addr - addr / pageSize * pageSize + chunkLen pageSize addr length)

/-- The number of transfers of `flash_chunk`: the page is read if need be, erased and written. -/
def chunkTransfers (pageSize addr length : Nat) : Nat :=
  (if addr % pageSize ≠ 0 ∨ length < pageSize then blockTransfers pageSize else 0) +
    (12 + blockTransfers (bufferLength pageSize addr length))

/-- The number of transfers of a section, in at most as many chunks as it has bytes. -/
def sectionTransfers (pageSize : Nat) : Nat → Nat → Nat → Nat
  | 0, _, _ => 0
  | fuel + 1, flashAddr, length =>
    if length = 0 then 0
    else
      let res := chunkLen pageSize flashAddr length
      chunkTransfers pageSize flashAddr length +
        sectionTransfers pageSize fuel ((flashAddr + res) % 2 ^ 32) (length - res)

/-- The number of transfers of all sections. -/
def fileTransfers (pageSize offset : Nat) (sections : List BfdSection) : Nat :=
  (sections.map fun isection =>
    sectionTransfers pageSize isection.data.length (isection.toSection.flashAddr offset)
      isection.data.length).sum

/-- The command gets to the sections of a file, with so many transfers behind it. -/
structure ReachesFile (host : Host) (family : C2Family) (argv : List (List UInt8))
    (target : Target) (offset first : Nat) (sections : List BfdSection) : Prop where
  file : ∃ filename bfdname,
    flashArgs host.longBits argv none 0 = some (filename, bfdname, offset) ∧
      host.openr filename bfdname = some { object := true, sections := sections }
  setup : setupTransfers host.sfr family.setup = some first
  ready : ∀ n < first, target.fails n = false

/-- The contents of all sections can be had, and none of the transfers for them fails. -/
structure NothingFails (pageSize offset first : Nat) (sections : List BfdSection)
    (target : Target) : Prop where
  obtained : ∀ isection ∈ sections, isection.load = true ∨ isection.data ≠ [] →
    isection.obtained = true
  transfers : ∀ n < fileTransfers pageSize offset sections, target.fails (first + n) = false

/-- So many transfers are so many transfers. -/
theorem transfers_takes (count : Nat) : C2.Takes (transfers count) count fun _ => True := by
  -- The induction is on the transfers.
  induction count with
  | zero => exact (C2.Takes.pure ()).weaken fun _ _ => trivial
  | succ count ih => exact (transfer_takes.bind fun _ _ => ih).of_eq (Nat.add_comm 1 count)

/-- A setup command gives its value. -/
theorem processSetupcmd_takes (sfr : UInt8 → UInt8) (setupcmd : C2Setupcmd) :
    C2.Takes (processSetupcmd sfr setupcmd) setupcmd.transfers (· = setupcmd.value sfr) := by
  -- The transfers come first, the value takes none.
  refine ((transfers_takes _).bind fun _ _ => ?_).of_eq (Nat.add_zero _)
  exact C2.Takes.pure _

/-- A setup whose values let it come to its end takes the transfers on the way there. -/
theorem c2familySetup_takes (sfr : UInt8 → UInt8) (setup : List C2Setupcmd) :
    ∀ {count : Nat}, setupTransfers sfr setup = some count →
      C2.Takes (c2familySetup sfr setup) count fun _ => True := by
  -- The induction follows the list, of which a value other than 0 leaves the rest out.
  induction setup with
  | nil =>
    intro count counted
    obtain rfl : 0 = count := by simpa [setupTransfers] using counted
    exact (C2.Takes.pure ()).weaken fun _ _ => trivial
  | cons setupcmd rest ih =>
    intro count counted
    have first := processSetupcmd_takes sfr setupcmd
    rw [setupTransfers] at counted
    by_cases goesOn : setupcmd.value sfr = 0
    · rw [if_pos goesOn] at counted
      obtain ⟨later, same, rfl⟩ := Option.map_eq_some_iff.mp counted
      refine first.bind fun res read => ?_
      rw [if_pos (read.trans goesOn)]
      exact ih same
    · rw [if_neg goesOn] at counted
      by_cases ends : setupcmd.value sfr = 1
      · rw [if_pos ends, Option.some.injEq] at counted
        subst counted
        refine (first.bind fun res read => ?_).of_eq (Nat.add_zero _)
        rw [if_neg (by rw [read]; exact goesOn), if_pos (read.trans ends)]
        exact (C2.Takes.pure ()).weaken fun _ _ => trivial
      · rw [if_neg ends] at counted
        exact nomatch counted

/-- A setup that succeeds is one whose values let it come to its end. -/
theorem setupTransfers_of_some (sfr : UInt8 → UInt8) (setup : List C2Setupcmd) :
    ∀ {target after : Target}, c2familySetup sfr setup target = (some (), after) →
      ∃ count, setupTransfers sfr setup = some count := by
  -- The induction is on the commands of the setup.
  induction setup with
  | nil =>
    intros
    exact ⟨0, rfl⟩
  | cons setupcmd rest ih =>
    intro target after ran
    obtain ⟨res, between, begun, ended⟩ := C2.bind_eq_some ran
    have takes := processSetupcmd_takes sfr setupcmd
    -- The value that was read decides whether the setup goes on.
    obtain ⟨read, _⟩ := takes.of_ran begun
    rw [setupTransfers]
    by_cases goesOn : setupcmd.value sfr = 0
    · rw [if_pos (read.trans goesOn)] at ended
      obtain ⟨count, counted⟩ := ih ended
      rw [if_pos goesOn, counted]
      exact ⟨_, rfl⟩
    · rw [if_neg (by rw [read]; exact goesOn)] at ended
      by_cases ends : setupcmd.value sfr = 1
      · rw [if_neg goesOn, if_pos ends]
        exact ⟨_, rfl⟩
      · -- Any other value is a failure of the setup.
        rw [if_neg (by rw [read]; exact ends)] at ended
        exact nomatch ended

/-- A chunk is neither empty nor longer than what is left. -/
theorem chunkLen_positive {pageSize : Nat} (pages : 0 < pageSize) (addr : Nat) {length : Nat}
    (positive : length ≠ 0) :
    0 < chunkLen pageSize addr length ∧ chunkLen pageSize addr length ≤ length := by
  -- The chunk starts inside its page, so it has room for one byte at least.
  have base : addr - addr / pageSize * pageSize < pageSize := by
    rw [Nat.mul_comm, ← Nat.mod_eq_sub]
    exact Nat.mod_lt addr pages
  have wrapped := Nat.mod_le (addr - addr / pageSize * pageSize + length) (2 ^ 32)
  simp only [chunkLen]
  split <;> omega

/-- What is copied behind the start of a buffer may make it longer. -/
theorem memcpy_length {buf src : List UInt8} {offset : Nat} (within : offset ≤ buf.length) :
    (memcpy buf offset src).length = max buf.length (offset + src.length) := by
  -- In front of the source, the source, and what is left behind it.
  simp only [memcpy, List.length_append, List.length_take, List.length_drop]
  omega

/-- The page is read unless the chunk covers all of it. -/
theorem pageBuffer_takes (pageSize : Nat) (uninit : Nat → UInt8) (addr length : Nat) :
    C2.Takes (pageBuffer pageSize uninit addr length)
      (if addr % pageSize ≠ 0 ∨ length < pageSize then blockTransfers pageSize else 0)
      fun buf => buf.length = pageSize := by
  -- The read is the one branch that asks for transfers.
  unfold pageBuffer
  by_cases mustRead : addr % pageSize ≠ 0 ∨ length < pageSize
  · rw [if_pos mustRead, if_pos mustRead]
    exact c2FlashRead_takes pageSize _
  · rw [if_neg mustRead, if_neg mustRead]
    exact (C2.Takes.pure _).weaken fun buf same => by rw [same, length_window]

/-- The transfers of `flash_chunk`, which returns the length of the chunk. -/
theorem flashChunk_takes {pageSize : Nat} (pages : 0 < pageSize) (uninit : Nat → UInt8)
    (addr : Nat) {src : List UInt8} (positive : src.length ≠ 0) :
    C2.Takes (flashChunk pageSize uninit addr src.length src)
      (chunkTransfers pageSize addr src.length) (· = chunkLen pageSize addr src.length) := by
  -- The read of the page, the erase and the write.
  have base : addr - addr / pageSize * pageSize < pageSize := by
    rw [Nat.mul_comm, ← Nat.mod_eq_sub]
    exact Nat.mod_lt addr pages
  obtain ⟨_, most⟩ := chunkLen_positive pages addr positive
  refine (pageBuffer_takes pageSize uninit addr src.length).bind fun buf page => ?_
  refine (c2FlashErase_takes _).bind fun _ _ => ?_
  -- The buffer has the length of the page, or ends with the chunk where that is beyond.
  have length : (memcpy buf (addr - addr / pageSize * pageSize)
      (src.take (chunkLen pageSize addr src.length))).length =
      bufferLength pageSize addr src.length := by
    rw [memcpy_length (by omega), List.length_take, Nat.min_eq_left most, page, bufferLength]
  refine ((c2FlashWrite_takes _ _ _ length).bind fun _ _ => ?_).of_eq (Nat.add_zero _)
  exact C2.Takes.pure _

/-- The loop of a section succeeds all along just when none of its transfers fails. -/
theorem chunksSucceed_iff {pageSize : Nat} (pages : 0 < pageSize) (uninit : Nat → UInt8) :
    ∀ fuel flashAddr (data : List UInt8) (target : Target), data.length ≤ fuel →
      (ChunksSucceed pageSize uninit flashAddr data target ↔
        ∀ n < sectionTransfers pageSize fuel flashAddr data.length, target.fails n = false) ∧
      (ChunksSucceed pageSize uninit flashAddr data target →
        (flashLoop pageSize uninit fuel flashAddr data target).fails =
          fun n => target.fails (sectionTransfers pageSize fuel flashAddr data.length + n)) := by
  -- The induction is on the turns of the loop, of which there are enough.
  intro fuel
  induction fuel with
  | zero =>
    intro flashAddr data target enough
    obtain rfl : data = [] := List.length_eq_zero_iff.mp (by omega)
    refine ⟨⟨fun _ n small => absurd small (Nat.not_lt_zero n), fun _ => .done _ _⟩, fun _ => ?_⟩
    simp only [flashLoop, sectionTransfers, Nat.zero_add]
  | succ fuel ih =>
    intro flashAddr data target enough
    by_cases empty : data.length = 0
    · obtain rfl : data = [] := List.length_eq_zero_iff.mp empty
      refine ⟨⟨fun _ n small => absurd small (Nat.not_lt_zero n), fun _ => .done _ _⟩, fun _ => ?_⟩
      simp only [flashLoop, sectionTransfers, List.length_nil, if_pos, Nat.zero_add]
    · have takes := flashChunk_takes pages uninit flashAddr empty
      obtain ⟨positive, most⟩ := chunkLen_positive pages flashAddr empty
      have later := ih ((flashAddr + chunkLen pageSize flashAddr data.length) % 2 ^ 32)
        (data.drop (chunkLen pageSize flashAddr data.length))
      rw [List.length_drop] at later
      simp only [sectionTransfers, if_neg empty, forall_lt_add, flashLoop]
      -- The first chunk succeeds when its own transfers do, whatever comes behind it.
      constructor
      · constructor
        · intro all
          cases all with
          | done => exact absurd List.length_nil empty
          | chunk left succeeds rest =>
            obtain ⟨same, fails⟩ := takes.of_ran succeeds
            subst same
            have good := (later _ (by omega)).1.mp rest
            rw [fails] at good
            exact ⟨takes.needs succeeds, good⟩
        · intro good
          obtain ⟨res, after, ran, same, fails⟩ := takes.succeeds target good.1
          subst same
          refine .chunk (by simpa using empty) ran ((later _ (by omega)).1.mpr ?_)
          rw [fails]
          exact good.2
      · intro all
        cases all with
        | done => exact absurd List.length_nil empty
        | chunk left succeeds rest =>
          obtain ⟨same, fails⟩ := takes.of_ran succeeds
          subst same
          simp only [succeeds]
          rw [(later _ (by omega)).2 rest, fails]
          funext n
          rw [Nat.add_assoc]

/-- A section is programmed when its contents can be had and none of its transfers fails. -/
theorem sectionProgrammed_iff {pageSize : Nat} (pages : 0 < pageSize) (uninit : Nat → UInt8)
    (offset : Nat) (target : Target) (isection : BfdSection) :
    SectionProgrammed pageSize uninit offset target isection ↔
      (isection.load = true ∨ isection.data ≠ [] → isection.obtained = true) ∧
        ∀ n < sectionTransfers pageSize isection.data.length
          (isection.toSection.flashAddr offset) isection.data.length, target.fails n = false := by
  -- What is left of a section are its chunks, which take the same transfers.
  have chunks := (chunksSucceed_iff pages uninit isection.data.length
    (isection.toSection.flashAddr offset) isection.data target (Nat.le_refl _)).1
  constructor
  · intro programmed
    exact ⟨programmed.obtained, chunks.mp programmed.chunks⟩
  · intro good
    exact ⟨good.1, chunks.mpr good.2⟩

/-- A section that is programmed leaves the transfers behind its own to the next one. -/
theorem flashSection_fails {pageSize : Nat} (pages : 0 < pageSize) {uninit : Nat → UInt8}
    {offset : Nat} {target : Target} {isection : BfdSection}
    (programmed : SectionProgrammed pageSize uninit offset target isection) :
    (flashSection pageSize uninit offset target isection.toSection).fails =
      fun n => target.fails (sectionTransfers pageSize isection.data.length
        (isection.toSection.flashAddr offset) isection.data.length + n) := by
  -- A section that cannot be read has no chunk, and a programmed one has nothing in it.
  unfold flashSection
  by_cases readable : isection.toSection.readable = true
  · rw [if_pos readable]
    exact (chunksSucceed_iff pages uninit isection.data.length _ isection.data target
      (Nat.le_refl _)).2 programmed.chunks
  · -- Only an empty section is programmed without its contents, and takes no transfer.
    rw [if_neg readable]
    have empty : isection.data = [] := by
      by_contra bytes
      exact readable (programmed.obtained (Or.inr bytes))
    simp only [empty, List.length_nil, sectionTransfers, Nat.zero_add]

/-- All sections are programmed just when nothing fails for them. -/
theorem sectionsProgrammed_iff {pageSize : Nat} (pages : 0 < pageSize) (uninit : Nat → UInt8)
    (offset : Nat) (sections : List BfdSection) :
    ∀ target : Target, SectionsProgrammed pageSize uninit offset sections target ↔
      NothingFails pageSize offset 0 sections target := by
  -- The induction is on the sections, each of which leaves its later transfers to the next one.
  induction sections with
  | nil =>
    intro target
    refine ⟨fun _ => ⟨?_, ?_⟩, fun _ => trivial⟩
    · intro isection member
      exact nomatch member
    · intro n small
      exact absurd small (Nat.not_lt_zero n)
  | cons isection rest ih =>
    intro target
    -- The transfers of the first section come first, and leave the later ones as they were.
    have split : fileTransfers pageSize offset (isection :: rest) =
        sectionTransfers pageSize isection.data.length (isection.toSection.flashAddr offset)
          isection.data.length + fileTransfers pageSize offset rest := by
      simp only [fileTransfers, List.map_cons, List.sum_cons]
    constructor
    · intro programmed
      obtain ⟨first, later⟩ := programmed
      obtain ⟨obtained, good⟩ := (sectionProgrammed_iff pages _ _ _ _).mp first
      obtain ⟨others, behind⟩ := (ih _).mp later
      rw [flashSection_fails pages first] at behind
      simp only [Nat.zero_add] at behind
      refine ⟨List.forall_mem_cons.mpr ⟨obtained, others⟩, ?_⟩
      simp only [Nat.zero_add]
      rw [split]
      exact forall_lt_add.mpr ⟨good, behind⟩
    · intro nothing
      obtain ⟨obtained, good⟩ := nothing
      simp only [Nat.zero_add] at good
      rw [split] at good
      obtain ⟨early, late⟩ := forall_lt_add.mp good
      have first := (sectionProgrammed_iff pages uninit offset target isection).mpr
        ⟨obtained _ List.mem_cons_self, early⟩
      refine ⟨first, (ih _).mpr ⟨fun other member => obtained other (.tail _ member), ?_⟩⟩
      rw [flashSection_fails pages first]
      simp only [Nat.zero_add]
      exact late

/-- A family has pages. -/
theorem C2Family.pageSize_pos (family : C2Family) : 0 < family.pageSize := by
  rcases family.pages with size | size <;> omega

/-- A setup that is counted and has none of its transfers fail leaves the later ones. -/
theorem ReachesFile.setup_ran {host : Host} {family : C2Family} {argv : List (List UInt8)}
    {target : Target} {offset first : Nat} {sections : List BfdSection}
    (reaches : ReachesFile host family argv target offset first sections) :
    ∃ after, c2familySetup host.sfr family.setup target = (some (), after) ∧
      after.fails = fun n => target.fails (first + n) := by
  -- The number of transfers is the one that the family's setup is counted with.
  have takes := c2familySetup_takes host.sfr family.setup reaches.setup
  obtain ⟨_, after, ran, _, fails⟩ := takes.succeeds target reaches.ready
  exact ⟨after, ran, fails⟩

/-- The command returns 0 just when it reaches the sections of a file, and whatever they do. -/
theorem handleFlash_eq_zero (host : Host) (family : C2Family) (argv : List (List UInt8))
    (target : Target) :
    (handleFlash host family argv target).1 = 0 ↔
      ∃ offset first sections, ReachesFile host family argv target offset first sections := by
  -- The command is followed through its arguments, the setup and the file.
  constructor
  · intro zero
    unfold handleFlash at zero
    -- Each error on the way has a result of its own.
    cases parsed : flashArgs host.longBits argv none 0 with
    | none =>
      simp only [parsed] at zero
      exact nomatch zero
    | some args =>
      obtain ⟨filename, bfdname, offset⟩ := args
      simp only [parsed] at zero
      cases ran : c2familySetup host.sfr family.setup target with
      | mk result after =>
        cases result with
        | none =>
          simp only [ran] at zero
          exact absurd zero (by decide)
        | some value =>
          simp only [ran, c2FlashFile] at zero
          obtain ⟨first, counted⟩ := setupTransfers_of_some host.sfr family.setup ran
          have ready := (c2familySetup_takes host.sfr family.setup counted).needs ran
          cases opened : host.openr filename bfdname with
          | none =>
            simp only [opened] at zero
            exact absurd zero (by decide)
          | some ibfd =>
            obtain ⟨object, sections⟩ := ibfd
            cases object with
            | false =>
              simp only [opened, if_true] at zero
              exact absurd zero (by decide)
            | true => exact ⟨offset, first, sections, ⟨filename, bfdname, parsed, opened⟩,
                counted, ready⟩
  · intro reached
    obtain ⟨offset, first, sections, reaches⟩ := reached
    obtain ⟨filename, bfdname, parsed, opened⟩ := reaches.file
    obtain ⟨after, ran, _⟩ := reaches.setup_ran
    simp only [handleFlash, parsed, ran, c2FlashFile, opened, Bool.true_eq_false, if_false]

/-- Once the sections of a file are reached, it is programmed just when nothing fails for them. -/
theorem fileProgrammed_iff {host : Host} {family : C2Family} {argv : List (List UInt8)}
    {target : Target} {offset first : Nat} {sections : List BfdSection}
    (reaches : ReachesFile host family argv target offset first sections) :
    FileProgrammed host family argv target ↔
      NothingFails family.pageSize offset first sections target := by
  -- The sections start on the target that the setup leaves.
  obtain ⟨filename, bfdname, parsed, opened⟩ := reaches.file
  obtain ⟨after, ran, fails⟩ := reaches.setup_ran
  have programmed := sectionsProgrammed_iff family.pageSize_pos host.uninit offset sections after
  -- The transfers of the sections are those behind the setup.
  have shifted : NothingFails family.pageSize offset 0 sections after ↔
      NothingFails family.pageSize offset first sections target := by
    have same : ∀ n, after.fails (0 + n) = target.fails (first + n) := by
      intro n
      rw [fails, Nat.zero_add]
    constructor
    · intro nothing
      exact ⟨nothing.obtained, fun n small => same n ▸ nothing.transfers n small⟩
    · intro nothing
      exact ⟨nothing.obtained, fun n small => same n ▸ nothing.transfers n small⟩
  rw [← shifted, ← programmed]
  constructor
  · intro found
    obtain ⟨name, bfdtarget, start, ibfd, last, parsed', opened', ran', done⟩ := found
    -- The arguments name one file, and the setup leaves one target.
    rw [parsed, Option.some.injEq, Prod.mk.injEq, Prod.mk.injEq] at parsed'
    obtain ⟨rfl, rfl, rfl⟩ := parsed'
    rw [opened, Option.some.injEq] at opened'
    subst opened'
    rw [ran, Prod.mk.injEq] at ran'
    obtain ⟨_, rfl⟩ := ran'
    exact done
  · intro done
    exact ⟨filename, bfdname, offset, _, after, parsed, opened, ran, done⟩

/--
A result of 0 means that the file is programmed exactly when, once the command reaches its
sections, the contents of each can be had and no transfer for them fails.
-/
theorem flash_reports_iff (host : Host) (family : C2Family) (argv : List (List UInt8))
    (target : Target) :
    ((handleFlash host family argv target).1 = 0 → FileProgrammed host family argv target) ↔
      ∀ offset first sections, ReachesFile host family argv target offset first sections →
        NothingFails family.pageSize offset first sections target := by
  -- The result is 0 when the command stops early or the file is programmed, so only the second
  -- case is left to compare.
  rw [handleFlash_eq_zero]
  constructor
  · intro reports offset first sections reaches
    exact (fileProgrammed_iff reaches).mp (reports ⟨offset, first, sections, reaches⟩)
  · intro nothing reached
    obtain ⟨offset, first, sections, reaches⟩ := reached
    exact (fileProgrammed_iff reaches).mpr (nothing offset first sections reaches)

/-- A section to load, whose contents cannot be read from its file. -/
def unreadSection : BfdSection where
  lma := 0
  data := [0x02]
  load := true
  allocates := true
  reads := false

/-- A host on which every file has this section only. -/
def unreadableFile : Host where
  longBits := 32
  openr _ _ := some { object := true, sections := [unreadSection] }
  uninit _ := 0
  sfr _ := 0

/-- A family with small pages that needs no setup. -/
def plainFamily : C2Family where
  pageSize := 512
  setup := []
  pages := Or.inl rfl

/-- A file whose contents cannot be read is reported as programmed. -/
theorem flash_unread_section :
    ¬ ∀ (host : Host) (family : C2Family) (argv : List (List UInt8)) (target : Target),
      (handleFlash host family argv target).1 = 0 → FileProgrammed host family argv target := by
  intro claim
  have reaches : ReachesFile unreadableFile plainFamily [ascii "a.hex"]
      (.reliable 512 fun _ => 0xff) 0 0 [unreadSection] :=
    ⟨⟨ascii "a.hex", none, rfl, rfl⟩, rfl, fun _ _ => rfl⟩
  have programmed := claim unreadableFile plainFamily [ascii "a.hex"]
    (.reliable 512 fun _ => 0xff) rfl
  -- The contents were never obtained, and the result is zero all the same.
  have nothing := (fileProgrammed_iff reaches).mp programmed
  exact absurd (nothing.obtained _ List.mem_cons_self (Or.inl rfl)) (by decide)

end OpenwrtMisc.C2Tool
