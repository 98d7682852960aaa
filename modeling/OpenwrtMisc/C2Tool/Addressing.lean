import OpenwrtMisc.C2Tool.FlashCommand

/-! Which cells of the flash a read or a section touches, also when a transfer fails on the way. -/

namespace OpenwrtMisc.C2Tool

/-- Memories that agree outside a region. -/
def AgreeOutside (region : Nat → Prop) (first second : Nat → UInt8) : Prop :=
  ∀ address, ¬ region address → first address = second address

/-- What is expected of `c2_flash_read`: it fails, or has read the cells that it was asked for. -/
structure ReadsAsked (addr length : Nat) : Prop where
  cells : ∀ {before after : Target} {bytes : List UInt8}, before.phase = .idle →
    c2FlashRead addr length before = (some bytes, after) →
      (∀ asked, addr ≤ asked → asked < addr + length → asked < flashSize) ∧
        bytes = window addr length before.flash
  keeps : ∀ {before : Target}, before.phase = .idle →
    (c2FlashRead addr length before).2.flash = before.flash

/-- The cells of the pages that a section has a byte on. -/
def OnAskedPage (pageSize addr length address : Nat) : Prop :=
  ∃ asked, addr ≤ asked ∧ asked < addr + length ∧ asked / pageSize = address / pageSize

/--
What is expected of `flash_section`: it leaves the pages alone that no byte of the section is on,
and when every chunk succeeds, the section is in the flash and the rest is as it was.
-/
structure ProgramsAsked (pageSize : Nat) (uninit : Nat → UInt8) (offset : Nat)
    (isection : Section) : Prop where
  pages : ∀ {target : Target}, target.phase = .idle → target.pageSize = pageSize →
    ∀ address < flashSize,
      ¬ OnAskedPage pageSize (isection.flashAddr offset) isection.data.length address →
        (flashSection pageSize uninit offset target isection).flash address = target.flash address
  cells : ∀ {target : Target}, target.phase = .idle → target.pageSize = pageSize →
    isection.readable = true →
    ChunksSucceed pageSize uninit (isection.flashAddr offset) isection.data target →
      (∀ asked, isection.flashAddr offset ≤ asked →
        asked < isection.flashAddr offset + isection.data.length → asked < flashSize) ∧
        (flashSection pageSize uninit offset target isection).flash =
          patch (isection.flashAddr offset) isection.data target.flash

/--
A call that takes a target to one state, with one value, when it succeeds.

Where it stops before that, the flash is still as it was outside the region.
-/
structure C2.Moves {α : Type} (region : Nat → Prop) (call : C2 α) (start : Target) (value : α)
    (finish : Target) : Prop where
  ends : ∀ {before after : Target} {result : α}, before.Like start →
    call before = (some result, after) → result = value ∧ after.Like finish
  keeps : ∀ {before : Target}, before.Like start →
    AgreeOutside region (call before).2.flash start.flash

namespace C2.Moves

variable {α β : Type} {region : Nat → Prop} {call : C2 α} {next : α → C2 β} {value : α}
  {result : β} {start middle finish : Target}

/-- Nothing is done. -/
theorem pure (value : α) (start : Target) :
    C2.Moves region (Pure.pure value) start value start where
  ends {before after last} like ran := by
    -- The two targets are the same before and behind.
    have done : (some value, before) = (some last, after) := ran
    rw [Prod.mk.injEq, Option.some.injEq] at done
    exact ⟨done.1.symm, done.2 ▸ like⟩
  keeps {before} like address _ := congrFun like.flash address

/-- Two calls one after the other, the second of which goes on where the first one ends. -/
theorem bind (first : C2.Moves region call start value middle)
    (second : C2.Moves region (next value) middle result finish) :
    C2.Moves region (call >>= next) start result finish where
  ends {before after last} like ran := by
    obtain ⟨found, between, begun, ended⟩ := C2.bind_eq_some ran
    obtain ⟨rfl, reached⟩ := first.ends like begun
    exact second.ends reached ended
  keeps {before} like address outside := by
    have kept := first.keeps like address outside
    cases begun : call before with
    | mk found between =>
      rw [begun] at kept
      cases found with
      | none =>
        rw [C2.bind_fail begun]
        exact kept
      | some found =>
        rw [C2.bind_ok begun]
        -- The second call starts in the state that the first one has reached.
        obtain ⟨rfl, reached⟩ := first.ends like begun
        have later := second.keeps reached address outside
        rw [← congrFun reached.flash address] at later
        exact later.trans kept

/-- A transfer that succeeds or fails changes nothing else. -/
theorem transfer (start : Target) : C2.Moves region transfer start () start where
  ends like ran := ⟨rfl, (transfer_some ran).trans like⟩
  keeps like address _ := congrFun like.flash address

/-- What changes the target does so within the region. -/
theorem change {move : Target → α × Target} (same : ∀ {first second : Target},
      first.Like second → (move first).1 = (move second).1 ∧ (move first).2.Like (move second).2)
    (inside : AgreeOutside region (move start).2.flash start.flash) :
    C2.Moves region (fun target => (some (move target).1, (move target).2)) start (move start).1
      (move start).2 where
  ends {before after last} like ran := by
    -- The results and the targets are read off the one move.
    rw [Prod.mk.injEq, Option.some.injEq] at ran
    obtain ⟨rfl, rfl⟩ := ran
    exact same like
  keeps {before} like address outside :=
    (congrFun (same like).2.flash address).trans (inside address outside)

end C2.Moves

/-- A command byte is taken by the target, within the region. -/
theorem c2PiCommand_moves {region : Nat → Prop} {start : Target} (command : UInt8) (verify : Bool)
    (inside : AgreeOutside region (start.receive command).flash start.flash) :
    C2.Moves region (c2PiCommand command verify) start () (start.receive command) := by
  -- The byte is taken with the write; what follows only asks the target whether it is done.
  have taken : C2.Moves region (c2WriteDr command) start () (start.receive command) :=
    (C2.Moves.transfer start).bind
      (@C2.Moves.change _ _ start (fun target => ((), target.receive command))
        (fun like => ⟨rfl, like.receive command⟩) inside)
  have written : C2.Moves region (c2PiWriteCommand command) start () (start.receive command) :=
    taken.bind (.transfer _)
  cases verify with
  | false => exact written.bind (.pure () _)
  | true => exact written.bind ((C2.Moves.transfer _).bind (.transfer _))

/-- A byte is taken from the target, whose flash stays as it is. -/
theorem c2PiGetData_moves {region : Nat → Prop} (start : Target) :
    C2.Moves region c2PiGetData start start.send.1 start.send.2 := by
  -- Two transfers and a byte, each of which stays within the region.
  have kept : start.send.2.flash = start.flash := by
    unfold Target.send
    split <;> rfl
  refine (C2.Moves.transfer start).bind ((C2.Moves.transfer start).bind ?_)
  exact C2.Moves.change (fun like => like.send) fun address _ => congrFun kept address

/-- A block command takes an idle target to the first byte of the block. -/
theorem blockCommand_moves {region : Nat → Prop} {start : Target} (idle : start.phase = .idle)
    (write : Bool) (addr : Nat) {length : Nat} (inside : addr < flashSize)
    (positive : length ≠ 0) :
    C2.Moves region (blockCommand (if write then fpdatBlockWrite else fpdatBlockRead) addr length)
      start ()
      { start with
        phase := if write then .writing addr (blocksize length)
          else .reading addr (blocksize length) } := by
  -- The bytes of the command are the operation, two of the address and the length.
  have first : start.receive (if write then fpdatBlockWrite else fpdatBlockRead) =
      { start with phase := .block write [] } := by
    cases write <;> simp [Target.receive, idle, fpdatBlockWrite, fpdatBlockRead]
  have last : ((({ start with phase := .block write [] } : Target).receive
      (UInt8.ofNat (addr >>> 8))).receive (UInt8.ofNat (addr &&& 0xff))).receive
        (lengthByte length) =
      { start with
        phase := if write then .writing addr (blocksize length)
          else .reading addr (blocksize length) } := by
    simp only [Target.receive, List.nil_append, List.cons_append, addressBytes_mod,
      Nat.mod_eq_of_lt inside, blockLength_lengthByte positive]
  have opened := @c2PiCommand_moves region start
    (if write then fpdatBlockWrite else fpdatBlockRead) true
  rw [first] at opened
  rw [← last]
  -- Each of the four bytes changes the phase alone.
  refine (opened fun _ _ => rfl).bind ?_
  refine (c2PiCommand_moves _ false fun _ _ => rfl).bind ?_
  exact (c2PiCommand_moves _ false fun _ _ => rfl).bind (c2PiCommand_moves _ true fun _ _ => rfl)

/-- A block is read from the cells of its interval. -/
theorem readBlock_moves {region : Nat → Prop} (count : Nat) : ∀ {address : Nat} {start : Target},
    start.phase = .more (.reading address) count → address + count ≤ flashSize →
      C2.Moves region (readBlock count) start (window address count start.flash)
        { start with phase := .idle } := by
  -- The induction follows the loop, as the cells are read from the lowest address on.
  induction count with
  | zero =>
    intro address start phase _
    rw [Target.setIdle phase]
    exact .pure [] start
  | succ count ih =>
    intro address start phase inside
    have sent : start.send =
        (start.flash address,
          { start with phase := .more (.reading (address + 1)) count }) := by
      rw [← more_nextAddress Phase.reading inside]
      simp only [Target.send, phase, Phase.more, Nat.add_sub_cancel]
    have byte := @c2PiGetData_moves region start
    rw [sent] at byte
    have rest := @ih (address + 1) { start with phase := .more (.reading (address + 1)) count }
      rfl (by omega)
    exact byte.bind (rest.bind (.pure _ _))

/-- A block is written to the cells of its interval. -/
theorem writeBlock_moves {region : Nat → Prop} (block : List UInt8) :
    ∀ {address : Nat} {start : Target}, start.phase = .more (.writing address) block.length →
      address + block.length ≤ flashSize →
      (∀ cell, address ≤ cell → cell < address + block.length → region cell) →
        C2.Moves region (writeBlock block) start ()
          { start with flash := patch address block start.flash, phase := .idle } := by
  -- The induction is on the bytes.
  induction block with
  | nil =>
    intro address start phase _ _
    rw [patch_nil]
    have same : { start with phase := .idle } = start := Target.setIdle phase
    rw [same]
    exact .pure () start
  | cons data rest ih =>
    intro address start phase inside cells
    rw [List.length_cons] at inside cells
    have received : start.receive data =
        { start with
          flash := patch address [data] start.flash
          phase := .more (.writing (address + 1)) rest.length } := by
      rw [← more_nextAddress Phase.writing inside]
      simp only [Target.receive, phase, List.length_cons, Phase.more, Nat.add_sub_cancel]
    have byte := @c2PiCommand_moves region start data false
    rw [received] at byte
    -- The first byte goes to a cell of the region, and so do the others behind it.
    have first : AgreeOutside region (patch address [data] start.flash) start.flash := by
      intro cell outside
      refine patch_outside ?_
      rw [List.length_singleton]
      by_contra within
      exact outside (cells cell (by omega) (by omega))
    have later := @ih (address + 1)
      { start with
        flash := patch address [data] start.flash
        phase := .more (.writing (address + 1)) rest.length }
      rfl (by omega) fun cell low high => cells cell (by omega) (by omega)
    rw [← patch_cons]
    exact (byte first).bind later

/-- `c2_flash_read` reads the cells of an interval inside the flash. -/
theorem c2FlashRead_moves {region : Nat → Prop} {start : Target} (idle : start.phase = .idle)
    (length : Nat) : ∀ addr, addr + length ≤ flashSize →
      C2.Moves region (c2FlashRead addr length) start (window addr length start.flash) start := by
  -- The induction is on the length, which gets shorter by a block.
  induction length using Nat.strongRecOn with
  | _ length ih =>
    intro addr inside
    rw [c2FlashRead]
    by_cases empty : length = 0
    · subst empty
      exact .pure [] start
    · obtain ⟨positive, fits⟩ := blocksize_bounds empty
      have opened := @blockCommand_moves region start idle false addr length (by omega) empty
      have block := @readBlock_moves region (blocksize length) addr
        { start with phase := .reading addr (blocksize length) } (more_pos positive).symm (by omega)
      have still : { start with phase := .idle } = start := Target.setIdle idle
      have next : (addr + blocksize length) % 2 ^ 32 = addr + blocksize length := by
        unfold flashSize at inside
        omega
      -- The blocks behind the first are those of a shorter read from a later address.
      have rest := ih (length - blocksize length) (by omega) (addr + blocksize length) (by omega)
      have whole : window addr length start.flash =
          window addr (blocksize length) start.flash ++
            window (addr + blocksize length) (length - blocksize length) start.flash := by
        rw [← window_append, Nat.add_sub_cancel' fits]
      rw [dif_neg empty, next, whole]
      dsimp only at block
      rw [still] at block
      exact opened.bind (block.bind (rest.bind (.pure _ _)))

/-- `c2_flash_write` writes the cells of an interval inside the flash. -/
theorem c2FlashWrite_moves {region : Nat → Prop} (length : Nat) :
    ∀ {start : Target} (src : List UInt8) (addr : Nat), start.phase = .idle →
      src.length = length → addr + length ≤ flashSize →
      (∀ cell, addr ≤ cell → cell < addr + length → region cell) →
        C2.Moves region (c2FlashWrite addr src) start ()
          { start with flash := patch addr src start.flash } := by
  -- The induction is on the length, which gets shorter by a block.
  induction length using Nat.strongRecOn with
  | _ length ih =>
    intro start src addr idle size inside cells
    rw [c2FlashWrite]
    by_cases empty : src.length = 0
    · rw [dif_pos empty, List.length_eq_zero_iff.mp empty, patch_nil]
      exact .pure () start
    · obtain ⟨positive, fits⟩ := blocksize_bounds empty
      have taken : (src.take (blocksize src.length)).length = blocksize src.length := by
        rw [List.length_take]
        omega
      have opened := @blockCommand_moves region start idle true addr src.length (by omega) empty
      have block := @writeBlock_moves region (src.take (blocksize src.length)) addr
        { start with phase := .writing addr (blocksize src.length) }
        (by rw [taken, more_pos positive]) (by omega)
        fun cell low high => cells cell low (by omega)
      have still : { start with
          flash := patch addr (src.take (blocksize src.length)) start.flash, phase := .idle } =
          { start with flash := patch addr (src.take (blocksize src.length)) start.flash } :=
        @Target.setIdle { start with
          flash := patch addr (src.take (blocksize src.length)) start.flash } idle
      -- The address of the next block does not wrap, as it is still in the flash.
      have next : (addr + blocksize src.length) % 2 ^ 32 =
          addr + (src.take (blocksize src.length)).length := by
        rw [taken]
        unfold flashSize at inside
        omega
      have rest := @ih (length - blocksize src.length) (by omega)
        { start with flash := patch addr (src.take (blocksize src.length)) start.flash }
        (src.drop (blocksize src.length)) (addr + (src.take (blocksize src.length)).length) idle
        (by rw [List.length_drop]; omega) (by rw [taken]; omega)
        fun cell low high => cells cell (by omega) (by rw [taken] at high; omega)
      dsimp only at block rest
      rw [patch_append, List.take_append_drop] at rest
      rw [still] at block
      rw [dif_neg empty, next]
      exact opened.bind (block.bind rest)

/-- `c2_flash_erase` fills the cells of its page. -/
theorem c2FlashErase_moves {region : Nat → Prop} {start : Target} (idle : start.phase = .idle)
    {page : Nat} (small : page < 256)
    (cells : ∀ cell, page * start.pageSize ≤ cell → cell < page * start.pageSize + start.pageSize →
      region cell) :
    C2.Moves region (c2FlashErase page) start ()
      { start with
        flash := patch (page * start.pageSize) (List.replicate start.pageSize 0xff)
          start.flash } := by
  -- The bytes of the command are the operation, the number of the page and a zero.
  have number : (UInt8.ofNat page).toNat = page := by
    rw [UInt8.toNat_ofNat']
    omega
  have first : start.receive fpdatPageErase = { start with phase := .erase none } := by
    simp [Target.receive, idle, fpdatPageErase, fpdatBlockRead, fpdatBlockWrite]
  have last : (({ start with phase := .erase none } : Target).receive (UInt8.ofNat page)).receive
      0 = { start with
        flash := patch (page * start.pageSize) (List.replicate start.pageSize 0xff)
          start.flash } := by
    simp only [Target.receive, number]
    exact @Target.setIdle { start with
      flash := patch (page * start.pageSize) (List.replicate start.pageSize 0xff) start.flash } idle
  have opened := @c2PiCommand_moves region start fpdatPageErase true
  rw [first] at opened
  have erased := @c2PiCommand_moves region
    (({ start with phase := .erase none } : Target).receive (UInt8.ofNat page)) 0 true
  rw [last] at erased
  -- Only the third byte changes the flash, and that within the page.
  refine (opened fun _ _ => rfl).bind ((c2PiCommand_moves _ true fun _ _ => rfl).bind (erased ?_))
  intro cell outside
  refine patch_outside ?_
  rw [List.length_replicate]
  by_contra within
  exact outside (cells cell (by omega) (by omega))

/-- The buffer of `flash_chunk` holds the page with the chunk in its place. -/
theorem pageBuffer_moves {region : Nat → Prop} {start : Target} (idle : start.phase = .idle)
    {pageSize : Nat} (uninit : Nat → UInt8) {addr : Nat} (length : Nat) (src : List UInt8)
    (base : addr / pageSize * pageSize ≤ addr)
    (fits : addr / pageSize * pageSize + pageSize ≤ flashSize)
    (within : addr + src.length ≤ addr / pageSize * pageSize + pageSize)
    (whole : addr % pageSize = 0 → pageSize ≤ length → src.length = pageSize) :
    ∃ buf, C2.Moves region (pageBuffer pageSize uninit addr length) start buf start ∧
      memcpy buf (addr - addr / pageSize * pageSize) src =
        window (addr / pageSize * pageSize) pageSize (patch addr src start.flash) := by
  -- What the buffer holds is known from a target whose transfers all succeed.
  have ready : ({ start with fails := fun _ => false } : Target).Ready := ⟨rfl, idle⟩
  obtain ⟨buf, read, filled⟩ := pageBuffer_ok ready uninit length src base fits within whole
  refine ⟨buf, ?_, filled⟩
  unfold pageBuffer at read ⊢
  -- The page is read before, or the chunk is going to cover all of it.
  by_cases mustRead : addr % pageSize ≠ 0 ∨ length < pageSize
  · rw [if_pos mustRead, c2FlashRead_ok ready _ _ fits, Prod.mk.injEq, Option.some.injEq] at read
    rw [if_pos mustRead, ← read.1]
    exact c2FlashRead_moves idle pageSize _ fits
  · rw [if_neg mustRead] at read ⊢
    have same : window 0 pageSize uninit = buf := Option.some.inj (congrArg Prod.fst read)
    rw [← same]
    exact .pure _ start

/-- `flash_chunk` programs the bytes of its chunk, and touches no other page. -/
theorem flashChunk_moves {region : Nat → Prop} {start : Target} (idle : start.phase = .idle)
    (size : PageSize start.pageSize) (uninit : Nat → UInt8) {addr : Nat} {src : List UInt8}
    (inside : addr + src.length ≤ flashSize) (positive : src.length ≠ 0)
    (cells : ∀ cell, cell / start.pageSize = addr / start.pageSize → region cell) :
    C2.Moves region (flashChunk start.pageSize uninit addr src.length src) start
      (chunkLen start.pageSize addr src.length)
      { start with
        flash := patch addr (src.take (chunkLen start.pageSize addr src.length)) start.flash } := by
  -- The page is read, erased and written back with the chunk in it.
  obtain ⟨base, beyond, fits, number⟩ := page_inside size addr (by omega)
  obtain ⟨_, most, within, whole⟩ := chunkLen_bounds size inside positive
  have pages : 0 < start.pageSize := by rcases size with size | size <;> omega
  -- The cells of the page are those that share its number.
  have page : ∀ cell, addr / start.pageSize * start.pageSize ≤ cell →
      cell < addr / start.pageSize * start.pageSize + start.pageSize → region cell := by
    intro cell low high
    refine cells cell (Nat.div_eq_of_lt_le low ?_)
    rw [Nat.succ_mul]
    exact high
  unfold flashChunk
  generalize chunkLen start.pageSize addr src.length = len at *
  have length : (src.take len).length = len := by
    rw [List.length_take]
    omega
  obtain ⟨buf, read, contents⟩ := @pageBuffer_moves region start idle start.pageSize uninit addr
    src.length (src.take len) base fits (by rw [length]; exact within)
    (by rw [length]; exact whole)
  have written := @c2FlashWrite_moves region start.pageSize
    { start with
      flash := patch (addr / start.pageSize * start.pageSize)
        (List.replicate start.pageSize 0xff) start.flash }
    (window (addr / start.pageSize * start.pageSize) start.pageSize
      (patch addr (src.take len) start.flash))
    (addr / start.pageSize * start.pageSize) idle (length_window _ _ _) fits page
  -- Outside the page neither the erase nor the chunk changes anything.
  have restored : patch (addr / start.pageSize * start.pageSize)
      (window (addr / start.pageSize * start.pageSize) start.pageSize
        (patch addr (src.take len) start.flash))
      (patch (addr / start.pageSize * start.pageSize) (List.replicate start.pageSize 0xff)
        start.flash) = patch addr (src.take len) start.flash := by
    refine patch_window fun address outside => ?_
    have erase : patch (addr / start.pageSize * start.pageSize)
        (List.replicate start.pageSize 0xff) start.flash address = start.flash address :=
      patch_outside (by rw [List.length_replicate]; exact outside)
    have chunk : patch addr (src.take len) start.flash address = start.flash address :=
      patch_outside (by omega)
    exact erase.trans chunk.symm
  dsimp only at written
  rw [restored, ← contents] at written
  exact read.bind ((c2FlashErase_moves idle number page).bind (written.bind (.pure _ _)))

/-- The loop over the chunks of a section that lies in the flash touches the pages of that alone. -/
theorem flashLoop_asked {pageSize : Nat} (size : PageSize pageSize) (uninit : Nat → UInt8)
    {region : Nat → Prop} : ∀ (fuel addr : Nat) (data : List UInt8) (target : Target),
      target.phase = .idle → target.pageSize = pageSize → data.length ≤ fuel →
      addr + data.length ≤ flashSize →
      (∀ cell, OnAskedPage pageSize addr data.length cell → region cell) →
        AgreeOutside region (flashLoop pageSize uninit fuel addr data target).flash target.flash ∧
          (ChunksSucceed pageSize uninit addr data target →
            (flashLoop pageSize uninit fuel addr data target).flash =
              patch addr data target.flash) := by
  -- The induction is on the fuel, of which there is one for each byte.
  intro fuel
  induction fuel with
  | zero =>
    intro addr data target _ _ enough _ _
    obtain rfl : data = [] := List.length_eq_zero_iff.mp (by omega)
    exact ⟨fun _ _ => rfl, fun _ => (patch_nil addr target.flash).symm⟩
  | succ fuel ih =>
    intro addr data target idle pages enough inside cells
    subst pages
    by_cases empty : data.length = 0
    · obtain rfl : data = [] := List.length_eq_zero_iff.mp empty
      exact ⟨fun _ _ => rfl, fun _ => (patch_nil addr target.flash).symm⟩
    · obtain ⟨positive, most, _, _⟩ := chunkLen_bounds size inside empty
      have moves := @flashChunk_moves region target idle size uninit addr data inside empty
        fun cell same => cells cell ⟨addr, Nat.le_refl addr, by omega, same.symm⟩
      have kept := moves.keeps (Target.Like.refl target)
      simp only [flashLoop, if_neg empty]
      cases ran : flashChunk target.pageSize uninit addr data.length data target with
      | mk outcome after =>
        rw [ran] at kept
        cases outcome with
        | none =>
          -- The loop is left, with the target as the chunk has left it.
          refine ⟨kept, fun succeed => ?_⟩
          cases succeed with
          | done => exact absurd rfl empty
          | chunk left succeeds rest =>
            rw [ran] at succeeds
            cases succeeds
        | some res =>
          obtain ⟨rfl, like⟩ := moves.ends (Target.Like.refl target) ran
          generalize chunkLen target.pageSize addr data.length = len at *
          have length : (data.take len).length = len := by
            rw [List.length_take]
            omega
          have next : (addr + len) % 2 ^ 32 = addr + (data.take len).length := by
            rw [length]
            unfold flashSize at inside
            omega
          have later := ih (addr + (data.take len).length) (data.drop len) after
            (like.phase.trans idle) like.pageSize (by rw [List.length_drop]; omega)
            (by rw [List.length_drop, length]; omega) fun cell asked => ?_
          · dsimp only
            rw [next]
            refine ⟨fun cell outside => ?_, fun succeed => ?_⟩
            · exact (later.1 cell outside).trans (kept cell outside)
            · cases succeed with
              | done => exact absurd rfl empty
              | chunk left succeeds rest =>
                rw [ran] at succeeds
                cases succeeds
                rw [next] at rest
                rw [later.2 rest, like.flash, patch_append, List.take_append_drop]
          · -- What is asked for later is asked for now.
            obtain ⟨asked, low, high, same⟩ := asked
            rw [List.length_drop] at high
            exact cells cell ⟨asked, by omega, by omega, same⟩

/-- A section whose contents can be read asks for cells that the flash has. -/
def Section.Fits (offset : Nat) (isection : Section) : Prop :=
  isection.readable = true → isection.data ≠ [] →
    isection.flashAddr offset + isection.data.length ≤ flashSize

/-- A read of a reliable target succeeds, wherever its cells are. -/
theorem c2FlashRead_succeeds (addr length : Nat) : ∃ bytes after,
    c2FlashRead addr length (.reliable 512 fun _ => 0) = (some bytes, after) := by
  -- No transfer of a reliable target fails, those of the read among them.
  obtain ⟨bytes, after, ran, _, _⟩ :=
    (c2FlashRead_takes length addr).succeeds (.reliable 512 fun _ => 0) fun _ _ => rfl
  exact ⟨bytes, after, ran⟩

/-- A read is one of the cells that were asked for just when the flash has them. -/
theorem readsAsked_iff (addr length : Nat) :
    ReadsAsked addr length ↔ length = 0 ∨ addr + length ≤ flashSize := by
  -- A reliable target answers every read, so only the cells count.
  constructor
  · intro asked
    by_contra outside
    obtain ⟨bytes, after, ran⟩ := c2FlashRead_succeeds addr length
    -- A read that succeeds shows that the flash has the last cell too.
    have cells := (asked.cells rfl ran).1 (addr + length - 1) (by omega) (by omega)
    omega
  · intro fits
    -- Nothing is read, or all of it is in the flash.
    have moves : ∀ {start : Target}, start.phase = .idle → C2.Moves (fun _ => False)
        (c2FlashRead addr length) start (window addr length start.flash) start := by
      intro start idle
      rcases fits with rfl | inside
      · rw [c2FlashRead]
        exact .pure [] start
      · exact c2FlashRead_moves idle length addr inside
    constructor
    · intro before after bytes idle ran
      refine ⟨fun asked low high => by omega, ?_⟩
      exact ((moves idle).ends (Target.Like.refl before) ran).1
    · intro before idle
      funext cell
      exact (moves idle).keeps (Target.Like.refl before) cell not_false

/-- A section is programmed as it was asked for just when the flash has its cells. -/
theorem programsAsked_iff {pageSize : Nat} (size : PageSize pageSize) (uninit : Nat → UInt8)
    (offset : Nat) (isection : Section) :
    ProgramsAsked pageSize uninit offset isection ↔ isection.Fits offset := by
  -- A reliable target takes every write, so only the cells count.
  have positive : 0 < pageSize := by rcases size with rfl | rfl <;> decide
  constructor
  · intro asked readable bytes
    -- Nothing fails on a reliable target, so that all cells must be there.
    have succeed := (chunksSucceed_iff positive uninit isection.data.length
      (isection.flashAddr offset) isection.data (.reliable pageSize fun _ => 0)
      (Nat.le_refl _)).1.mpr fun _ _ => rfl
    have cells := (@ProgramsAsked.cells _ _ _ _ asked (.reliable pageSize fun _ => 0) rfl rfl
      readable succeed).1
    have some := List.length_pos_of_ne_nil bytes
    have last := cells (isection.flashAddr offset + isection.data.length - 1) (by omega) (by omega)
    omega
  · intro fits
    by_cases readable : isection.readable = true
    · by_cases empty : isection.data = []
      · -- The loop makes no turn for an empty section.
        have untouched : ∀ target,
            flashSection pageSize uninit offset target isection = target := by
          intro target
          rw [flashSection, if_pos readable, empty]
          rfl
        constructor
        · intro target _ _ address _ _
          rw [untouched]
        · intro target _ _ _ _
          rw [untouched, empty, patch_nil]
          exact ⟨fun asked low high => absurd high (Nat.not_lt.mpr low), rfl⟩
      · have inside := fits readable empty
        have loop := @flashLoop_asked pageSize size uninit
          (OnAskedPage pageSize (isection.flashAddr offset) isection.data.length)
          isection.data.length (isection.flashAddr offset) isection.data
        have runs : ∀ target, flashSection pageSize uninit offset target isection =
            flashLoop pageSize uninit isection.data.length (isection.flashAddr offset)
              isection.data target := fun target => if_pos readable
        constructor
        · intro target idle pages address _ outside
          rw [runs]
          exact (loop target idle pages (Nat.le_refl _) inside fun _ => id).1 address outside
        · intro target idle pages _ succeed
          rw [runs]
          refine ⟨fun asked _ high => Nat.lt_of_lt_of_le high inside, ?_⟩
          exact (loop target idle pages (Nat.le_refl _) inside fun _ => id).2 succeed
    · have untouched : ∀ target, flashSection pageSize uninit offset target isection = target :=
        fun target => if_neg readable
      constructor
      · intro target _ _ address _ _
        rw [untouched]
      · exact fun _ _ given => absurd given readable

/--
A read is one of the cells that were asked for, and a section is programmed where it was asked for,
just when the flash has the cells.

The transfers may fail anywhere, and the buffer of a chunk may hold anything before it is filled.
-/
theorem addressing_iff (family : C2Family) (uninit : Nat → UInt8) (offset addr length : Nat)
    (isection : Section) :
    (ReadsAsked addr length ↔ length = 0 ∨ addr + length ≤ flashSize) ∧
      (ProgramsAsked family.pageSize uninit offset isection ↔ isection.Fits offset) :=
  ⟨readsAsked_iff addr length, programsAsked_iff family.pages uninit offset isection⟩

/-- A byte for an address behind the flash, on a page whose number is cut to that of page 0. -/
def behindFlash : Section where
  lma := 0x20000
  data := [0x5a]
  readable := true

/-- The byte is reported as programmed, although the flash has no cell for it. -/
theorem behindFlash_programmed :
    ¬ ∀ (family : C2Family) (uninit : Nat → UInt8) (offset : Nat) (isection : Section),
      ProgramsAsked family.pageSize uninit offset isection := by
  intro claim
  have asked := claim ⟨512, [], .inl rfl⟩ (fun _ => 0) 0 behindFlash
  -- None of the transfers fails, so that the only chunk of the section succeeds.
  have succeed := (@chunksSucceed_iff 512 (by decide) (fun _ => 0) 1 0x20000 [0x5a]
    (.reliable 512 fun _ => 0) (Nat.le_refl 1)).1.mpr fun _ _ => rfl
  have cells := (@ProgramsAsked.cells _ _ _ _ asked (.reliable 512 fun _ => 0) rfl rfl rfl
    succeed).1
  exact absurd (cells 0x20000 (Nat.le_refl _) (by decide)) (by decide)

end OpenwrtMisc.C2Tool
