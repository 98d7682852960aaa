import Mathlib.Algebra.Order.Ring.Nat
import OpenwrtMisc.C2Tool.Target

/-! Programming of whole sections, page by page, with the pages read, erased and written back. -/

namespace OpenwrtMisc.C2Tool

/-- The length byte and the size of the next block of `c2_flash_read` and `c2_flash_write`. -/
def lengthByte (length : Nat) : UInt8 := if length > 255 then 0 else UInt8.ofNat length
def blocksize (length : Nat) : Nat := if length > 255 then 256 else length

/-- What opens a block in both functions: the command, the address and the length. -/
def blockCommand (command : UInt8) (addr length : Nat) : C2 Unit := do
  c2PiCommand command true
  c2PiCommand (UInt8.ofNat (addr >>> 8)) false
  c2PiCommand (UInt8.ofNat (addr &&& 0xff)) false
  c2PiCommand (lengthByte length) true

/-- The loop that reads the bytes of a block. -/
def readBlock : Nat → C2 (List UInt8)
  | 0 => pure []
  | left + 1 => do
    let data ← c2PiGetData
    let rest ← readBlock left
    pure (data :: rest)

/-- The loop that writes the bytes of a block. -/
def writeBlock : List UInt8 → C2 Unit
  | [] => pure ()
  | data :: rest => do
    c2PiCommand data false
    writeBlock rest

/-- A block takes at least one byte, and no more than there are. -/
theorem blocksize_bounds {length : Nat} (positive : length ≠ 0) :
    0 < blocksize length ∧ blocksize length ≤ length := by
  -- A block of 256 bytes, or what is left.
  unfold blocksize
  split <;> omega

/-- `c2_flash_read` with a destination. -/
def c2FlashRead (addr length : Nat) : C2 (List UInt8) :=
  if empty : length = 0 then pure []
  else do
    blockCommand fpdatBlockRead addr length
    let block ← readBlock (blocksize length)
    let rest ← c2FlashRead ((addr + blocksize length) % 2 ^ 32) (length - blocksize length)
    pure (block ++ rest)
  termination_by length
  decreasing_by have := blocksize_bounds empty; omega

/-- `c2_flash_write` of a whole buffer. -/
def c2FlashWrite (addr : Nat) (src : List UInt8) : C2 Unit :=
  if empty : src.length = 0 then pure ()
  else do
    blockCommand fpdatBlockWrite addr src.length
    writeBlock (src.take (blocksize src.length))
    c2FlashWrite ((addr + blocksize src.length) % 2 ^ 32) (src.drop (blocksize src.length))
  termination_by src.length
  decreasing_by
    have := blocksize_bounds empty
    rw [List.length_drop]
    omega

/-- `c2_flash_erase`, whose parameter is an `unsigned char`. -/
def c2FlashErase (page : Nat) : C2 Unit := do
  c2PiCommand fpdatPageErase true
  c2PiCommand (UInt8.ofNat page) true
  c2PiCommand 0 true

/-- The number of bytes that `flash_chunk` programs. -/
def chunkLen (pageSize addr length : Nat) : Nat :=
  let chunkStart := addr - addr / pageSize * pageSize
  if (chunkStart + length) % 2 ^ 32 > pageSize then pageSize - chunkStart else length

/-- `memcpy` into a buffer. -/
def memcpy (buf : List UInt8) (offset : Nat) (src : List UInt8) : List UInt8 :=
  buf.take offset ++ src ++ buf.drop (offset + src.length)

/-- The page that `flash_chunk` starts from: read back, unless the chunk covers all of it. -/
def pageBuffer (pageSize : Nat) (uninit : Nat → UInt8) (addr length : Nat) : C2 (List UInt8) :=
  let mustRead := addr % pageSize ≠ 0 ∨ length < pageSize
  if mustRead then c2FlashRead (addr / pageSize * pageSize) pageSize
  else pure (window 0 pageSize uninit)

/-- `flash_chunk`, with what its buffer holds before it is filled. -/
def flashChunk (pageSize : Nat) (uninit : Nat → UInt8) (addr length : Nat) (src : List UInt8) :
    C2 Nat := do
  let page := addr / pageSize
  let pageBase := page * pageSize
  let chunkLen := chunkLen pageSize addr length
  let buf ← pageBuffer pageSize uninit addr length
  let buf := memcpy buf (addr - pageBase) (src.take chunkLen)
  c2FlashErase page
  c2FlashWrite pageBase buf
  pure chunkLen

/-- A section of the file, and whether its contents can be read. -/
structure Section where
  lma : Nat
  data : List UInt8
  readable : Bool

/-- The address at which a section goes to flash. -/
def Section.flashAddr (offset : Nat) (isection : Section) : Nat := (isection.lma + offset) % 2 ^ 32

/-- The loop of `flash_section`, which takes at most as many turns as there are bytes. -/
def flashLoop (pageSize : Nat) (uninit : Nat → UInt8) : Nat → Nat → List UInt8 → Target → Target
  | 0, _, _, target => target
  | fuel + 1, flashAddr, data, target =>
    if data.length = 0 then target
    else
      match flashChunk pageSize uninit flashAddr data.length data target with
      | (none, target) => target
      | (some res, target) =>
        flashLoop pageSize uninit fuel ((flashAddr + res) % 2 ^ 32) (data.drop res) target

/-- `flash_section`. -/
def flashSection (pageSize : Nat) (uninit : Nat → UInt8) (offset : Nat) (target : Target)
    (isection : Section) : Target :=
  if isection.readable then
    flashLoop pageSize uninit isection.data.length (isection.flashAddr offset) isection.data target
  else target

/-- `bfd_map_over_sections` with `flash_section`. -/
def flashSections (pageSize : Nat) (uninit : Nat → UInt8) (offset : Nat) (target : Target)
    (sections : List Section) : Target :=
  sections.foldl (flashSection pageSize uninit offset) target

/-- A target that waits for a command and whose transfers all succeed. -/
structure Target.Ready (target : Target) : Prop where
  reliable : target.Reliable
  idle : target.phase = .idle

/-- A ready target stays ready whatever its flash holds. -/
theorem Target.Ready.withFlash {target : Target} (ready : target.Ready) (flash : Nat → UInt8) :
    ({ target with flash := flash } : Target).Ready :=
  ⟨ready.reliable, ready.idle⟩

/-- A target in a phase with nothing left is an idle one. -/
theorem Target.setIdle {target : Target} (idle : target.phase = .idle) :
    { target with phase := .idle } = target := by
  -- The phase is what is written into it.
  obtain ⟨flash, pageSize, phase, fails⟩ := target
  cases idle
  rfl

/-- The length byte stands for the size of the block. -/
theorem blockLength_lengthByte {length : Nat} (positive : length ≠ 0) :
    blockLength (lengthByte length) = blocksize length := by
  -- A block of 256 bytes has the length byte zero.
  unfold lengthByte blocksize
  split
  · rfl
  · have small : (UInt8.ofNat length).toNat = length := by
      rw [UInt8.toNat_ofNat']
      omega
    -- The length byte zero stands for 256 bytes, so it must not come from a shorter block.
    have nonzero : UInt8.ofNat length ≠ 0 := by
      intro zero
      rw [zero] at small
      exact positive small.symm
    rw [blockLength, if_neg nonzero, small]

/-- The two address bytes stand for the address within the flash. -/
theorem addressBytes_mod (addr : Nat) :
    (UInt8.ofNat (addr >>> 8)).toNat * 256 + (UInt8.ofNat (addr &&& 0xff)).toNat =
      addr % flashSize := by
  -- What is above the two bytes is cut off by the conversion.
  have high : addr >>> 8 = addr / 256 := Nat.shiftRight_eq_div_pow addr 8
  have low : addr &&& 0xff = addr % 256 := Nat.and_two_pow_sub_one_eq_mod addr 8
  rw [UInt8.toNat_ofNat', UInt8.toNat_ofNat', high, low]
  unfold flashSize
  omega

/-- A block command leaves the target at the first of the bytes of the block. -/
theorem blockCommand_ok {target : Target} (ready : target.Ready) (write : Bool) (addr : Nat)
    {length : Nat} (inside : addr < flashSize) (positive : length ≠ 0) :
    blockCommand (if write then fpdatBlockWrite else fpdatBlockRead) addr length target =
      (some (), { target with
        phase := if write then .writing addr (blocksize length)
          else .reading addr (blocksize length) }) := by
  have first : target.receive (if write then fpdatBlockWrite else fpdatBlockRead) =
      { target with phase := .block write [] } := by
    cases write <;> simp [Target.receive, ready.idle, fpdatBlockWrite, fpdatBlockRead]
  -- The command opens the block, and its three arguments follow with reliable transfers.
  have opened : ({ target with phase := .block write [] } : Target).Reliable := ready.reliable
  unfold blockCommand
  rw [C2.bind_ok (c2PiCommand_ok ready.reliable _ _), first,
    C2.bind_ok (c2PiCommand_ok opened _ _), C2.bind_ok (c2PiCommand_ok (opened.receive _) _ _),
    c2PiCommand_ok ((opened.receive _).receive _)]
  simp only [Target.receive, List.nil_append, List.cons_append, addressBytes_mod,
    Nat.mod_eq_of_lt inside, blockLength_lengthByte positive]

/-- Inside the flash, the next address is the next number, unless nothing is left to do there. -/
theorem more_nextAddress (phase : Nat → Nat → Phase) {address left : Nat}
    (inside : address + (left + 1) ≤ flashSize) :
    Phase.more (phase (nextAddress address)) left = Phase.more (phase (address + 1)) left := by
  -- With nothing left the address is dropped, else it is still in the flash.
  cases left with
  | zero => rfl
  | succ left => rw [nextAddress, Nat.mod_eq_of_lt (by omega)]

/-- Reading a block gives the cells of its interval and leaves the flash alone. -/
theorem readBlock_ok (count : Nat) :
    ∀ address (target : Target), target.Reliable →
      target.phase = .more (.reading address) count → address + count ≤ flashSize →
      readBlock count target =
        (some (window address count target.flash), { target with phase := .idle }) := by
  -- The induction follows the loop, which reads the cells from the lowest address on.
  induction count with
  | zero =>
    intro address target _ phase _
    rw [Target.setIdle phase]
    rfl
  | succ count ih =>
    intro address target reliable phase inside
    have sent : target.send =
        (target.flash address,
          { target with phase := .more (.reading (address + 1)) count }) := by
      rw [← more_nextAddress Phase.reading inside]
      simp only [Target.send, phase, Phase.more, Nat.add_sub_cancel]
    have rest := ih (address + 1) { target with phase := .more (.reading (address + 1)) count }
      reliable rfl (by omega)
    rw [readBlock, C2.bind_ok (c2PiGetData_ok reliable), sent, C2.bind_ok rest]
    rfl

/-- Writing a block stores its bytes and nothing else. -/
theorem writeBlock_ok (block : List UInt8) :
    ∀ address (target : Target), target.Reliable →
      target.phase = .more (.writing address) block.length →
      address + block.length ≤ flashSize →
      writeBlock block target =
        (some (), { target with flash := patch address block target.flash, phase := .idle }) := by
  -- The induction is on the bytes.
  induction block with
  | nil =>
    intro address target _ phase _
    rw [patch_nil]
    exact congrArg (Prod.mk _) (Target.setIdle phase).symm
  | cons data rest ih =>
    intro address target reliable phase inside
    have received : target.receive data =
        { target with
          flash := patch address [data] target.flash
          phase := .more (.writing (address + 1)) rest.length } := by
      rw [← more_nextAddress Phase.writing inside]
      simp only [Target.receive, phase, List.length_cons, Phase.more, Nat.add_sub_cancel]
    -- The first byte is in its cell before the others are written behind it.
    have later := ih (address + 1)
      { target with
        flash := patch address [data] target.flash
        phase := .more (.writing (address + 1)) rest.length }
      reliable rfl (by simp only [List.length_cons] at inside; omega)
    rw [writeBlock, C2.bind_ok (c2PiCommand_ok reliable _ _), received, later, patch_cons]

/-- A phase with something left is the phase itself. -/
theorem more_pos {phase : Nat → Phase} {left : Nat} (positive : 0 < left) :
    Phase.more phase left = phase left := by
  -- Only with nothing left is the phase another one.
  cases left with
  | zero => omega
  | succ left => rfl

/-- `c2_flash_read` returns the cells of an interval inside the flash and changes nothing. -/
theorem c2FlashRead_ok {target : Target} (ready : target.Ready) (length : Nat) :
    ∀ addr, addr + length ≤ flashSize →
      c2FlashRead addr length target = (some (window addr length target.flash), target) := by
  -- The induction is on the length, which gets shorter by a block.
  induction length using Nat.strongRecOn with
  | _ length ih =>
    intro addr inside
    rw [c2FlashRead]
    by_cases empty : length = 0
    · subst empty
      rfl
    · obtain ⟨positive, fits⟩ := blocksize_bounds empty
      have opened := blockCommand_ok ready false addr (by omega) empty
      have block := readBlock_ok (blocksize length) addr
        { target with phase := .reading addr (blocksize length) } ready.reliable
        (more_pos positive).symm (by omega)
      have idle : { target with phase := .idle } = target := Target.setIdle ready.idle
      -- The blocks behind the first are those of a shorter read from a later address.
      have rest := ih (length - blocksize length) (by omega)
        ((addr + blocksize length) % 2 ^ 32) (by unfold flashSize at *; omega)
      rw [dif_neg empty]
      refine (C2.bind_ok opened).trans ((C2.bind_ok block).trans ?_)
      rw [idle]
      refine (C2.bind_ok rest).trans ?_
      have next : (addr + blocksize length) % 2 ^ 32 = addr + blocksize length := by
        unfold flashSize at inside
        omega
      have whole : length = blocksize length + (length - blocksize length) := by omega
      rw [next]
      conv_rhs => rw [whole, window_append]
      rfl

/-- `c2_flash_write` stores its buffer in an interval inside the flash. -/
theorem c2FlashWrite_ok {target : Target} (ready : target.Ready) (length : Nat) :
    ∀ (src : List UInt8) addr, src.length = length → addr + length ≤ flashSize →
      c2FlashWrite addr src target =
        (some (), { target with flash := patch addr src target.flash }) := by
  -- The induction is on the length, which gets shorter by a block.
  induction length using Nat.strongRecOn generalizing target with
  | _ length ih =>
    intro src addr size inside
    rw [c2FlashWrite]
    by_cases empty : src.length = 0
    · rw [dif_pos empty, List.length_eq_zero_iff.mp empty, patch_nil]
      rfl
    · obtain ⟨positive, fits⟩ := blocksize_bounds empty
      have taken : (src.take (blocksize src.length)).length = blocksize src.length := by
        rw [List.length_take]
        omega
      have opened := blockCommand_ok ready true addr (by omega) empty
      have block := writeBlock_ok (src.take (blocksize src.length)) addr
        { target with phase := .writing addr (blocksize src.length) } ready.reliable
        (by rw [taken, more_pos positive]) (by omega)
      -- The address of the next block does not wrap, as it is still in the flash.
      have next : (addr + blocksize src.length) % 2 ^ 32 =
          addr + (src.take (blocksize src.length)).length := by
        rw [taken]
        unfold flashSize at inside
        omega
      have rest := ih (length - blocksize src.length) (by omega)
        (ready.withFlash (patch addr (src.take (blocksize src.length)) target.flash))
        (src.drop (blocksize src.length)) (addr + (src.take (blocksize src.length)).length)
        (by rw [List.length_drop]; omega) (by rw [taken]; omega)
      rw [dif_neg empty]
      refine (C2.bind_ok opened).trans ((C2.bind_ok block).trans ?_)
      have idle : { target with
          flash := patch addr (src.take (blocksize src.length)) target.flash, phase := .idle } =
          { target with flash := patch addr (src.take (blocksize src.length)) target.flash } :=
        Target.setIdle (ready.withFlash _).idle
      rw [idle, next, rest, patch_append, List.take_append_drop]

/-- `c2_flash_erase` fills its page. -/
theorem c2FlashErase_ok {target : Target} (ready : target.Ready) {page : Nat}
    (small : page < 256) :
    c2FlashErase page target =
      (some (), { target with
        flash := patch (page * target.pageSize) (List.replicate target.pageSize 0xff)
          target.flash }) := by
  -- The page number is an `unsigned char` here, which a page of the flash fits in.
  have number : (UInt8.ofNat page).toNat = page := by
    rw [UInt8.toNat_ofNat']
    omega
  have first : target.receive fpdatPageErase = { target with phase := .erase none } := by
    simp [Target.receive, ready.idle, fpdatPageErase, fpdatBlockRead, fpdatBlockWrite]
  have opened : ({ target with phase := .erase none } : Target).Reliable := ready.reliable
  unfold c2FlashErase
  rw [C2.bind_ok (c2PiCommand_ok ready.reliable _ _), first,
    C2.bind_ok (c2PiCommand_ok opened _ _), c2PiCommand_ok (opened.receive _)]
  simp only [Target.receive, number]
  exact congrArg (Prod.mk _) (Target.setIdle (ready.withFlash _).idle)

/-- The page sizes of the supported families. -/
def PageSize (pageSize : Nat) : Prop := pageSize = 512 ∨ pageSize = 1024

/-- The page of an address lies in the flash, and its number fits in a byte. -/
theorem page_inside {pageSize : Nat} (size : PageSize pageSize) (addr : Nat)
    (inside : addr < flashSize) :
    addr / pageSize * pageSize ≤ addr ∧ addr < addr / pageSize * pageSize + pageSize ∧
      addr / pageSize * pageSize + pageSize ≤ flashSize ∧ addr / pageSize < 256 := by
  -- Both sizes of a page divide the flash.
  unfold flashSize at *
  rcases size with rfl | rfl <;> omega

/-- A chunk takes some of the bytes that are left, and ends no later than its page. -/
theorem chunkLen_bounds {pageSize addr length : Nat} (size : PageSize pageSize)
    (inside : addr + length ≤ flashSize) (positive : length ≠ 0) :
    0 < chunkLen pageSize addr length ∧ chunkLen pageSize addr length ≤ length ∧
      addr + chunkLen pageSize addr length ≤ addr / pageSize * pageSize + pageSize ∧
      (addr % pageSize = 0 → pageSize ≤ length → chunkLen pageSize addr length = pageSize) := by
  -- The chunk is cut at the end of its page, or is all that is left.
  obtain ⟨base, beyond, _, _⟩ := page_inside size addr (by omega)
  have remainder : addr % pageSize = addr - addr / pageSize * pageSize := by
    rw [Nat.mul_comm, Nat.mod_eq_sub]
  have small : pageSize ≤ 1024 := by rcases size with rfl | rfl <;> omega
  -- The sum of the `unsigned int`s is small, so the comparison is that of the numbers.
  have unwrapped : (addr - addr / pageSize * pageSize + length) % 2 ^ 32 =
      addr - addr / pageSize * pageSize + length := by
    unfold flashSize at inside
    omega
  simp only [chunkLen, unwrapped]
  split
  · refine ⟨by omega, by omega, by omega, fun aligned _ => by omega⟩
  · refine ⟨by omega, by omega, by omega, fun aligned whole => by omega⟩

/-- A write into a buffer that shows an interval shows the write into the memory. -/
theorem memcpy_window {start count addr : Nat} {src : List UInt8} (memory : Nat → UInt8)
    (low : start ≤ addr) (high : addr + src.length ≤ start + count) :
    memcpy (window start count memory) (addr - start) src =
      window start count (patch addr src memory) := by
  -- The offset in the buffer is the address in the memory.
  have offset : start + (addr - start) = addr := by omega
  have written := window_patch start count (addr - start) src memory (by omega)
  rw [offset] at written
  exact written.symm

/-- Filling a whole buffer leaves nothing of what it held. -/
theorem memcpy_whole {buf src : List UInt8} (whole : src.length = buf.length) :
    memcpy buf 0 src = src := by
  simp [memcpy, whole]

/-- The buffer of `flash_chunk` holds the page with the chunk in its place. -/
theorem pageBuffer_ok {target : Target} (ready : target.Ready) {pageSize : Nat}
    (uninit : Nat → UInt8) {addr : Nat} (length : Nat) (src : List UInt8)
    (base : addr / pageSize * pageSize ≤ addr)
    (fits : addr / pageSize * pageSize + pageSize ≤ flashSize)
    (within : addr + src.length ≤ addr / pageSize * pageSize + pageSize)
    (whole : addr % pageSize = 0 → pageSize ≤ length → src.length = pageSize) :
    ∃ buf, pageBuffer pageSize uninit addr length target = (some buf, target) ∧
      memcpy buf (addr - addr / pageSize * pageSize) src =
        window (addr / pageSize * pageSize) pageSize (patch addr src target.flash) := by
  -- A page that is only covered in part is read first, the other one is covered by the chunk.
  have filled := memcpy_window target.flash base within
  unfold pageBuffer
  by_cases mustRead : addr % pageSize ≠ 0 ∨ length < pageSize
  · rw [if_pos mustRead]
    exact ⟨_, c2FlashRead_ok ready _ _ fits, filled⟩
  · -- A chunk that starts and fills its page leaves nothing of the buffer.
    rw [if_neg mustRead]
    refine ⟨window 0 pageSize uninit, rfl, ?_⟩
    have page : src.length = pageSize := whole (by omega) (by omega)
    have start : addr - addr / pageSize * pageSize = 0 := by omega
    rw [start] at filled ⊢
    rw [← filled, memcpy_whole (by rw [length_window, page]),
      memcpy_whole (by rw [length_window, page])]

/-- `flash_chunk` programs the bytes of its chunk and leaves the rest of the flash alone. -/
theorem flashChunk_ok {target : Target} (ready : target.Ready) (size : PageSize target.pageSize)
    (uninit : Nat → UInt8) {addr : Nat} {src : List UInt8}
    (inside : addr + src.length ≤ flashSize) (positive : src.length ≠ 0) :
    flashChunk target.pageSize uninit addr src.length src target =
      (some (chunkLen target.pageSize addr src.length), { target with
        flash := patch addr (src.take (chunkLen target.pageSize addr src.length))
          target.flash }) := by
  -- The page is read, erased and written back with the chunk in it.
  obtain ⟨base, beyond, fits, number⟩ := page_inside size addr (by omega)
  obtain ⟨_, most, within, whole⟩ := chunkLen_bounds size inside positive
  unfold flashChunk
  -- From here on only the bounds of the chunk count.
  generalize chunkLen target.pageSize addr src.length = len at *
  have length : (src.take len).length = len := by
    rw [List.length_take]
    omega
  obtain ⟨buf, read, contents⟩ := pageBuffer_ok ready uninit src.length (src.take len)
    base fits (by rw [length]; exact within) (by rw [length]; exact whole)
  have erased := ready.withFlash (patch (addr / target.pageSize * target.pageSize)
    (List.replicate target.pageSize 0xff) target.flash)
  have written := c2FlashWrite_ok erased target.pageSize
    (window (addr / target.pageSize * target.pageSize) target.pageSize
      (patch addr (src.take len) target.flash))
    (addr / target.pageSize * target.pageSize) (length_window _ _ _) fits
  refine (C2.bind_ok read).trans ?_
  rw [contents]
  refine (C2.bind_ok (c2FlashErase_ok ready number)).trans ((C2.bind_ok written).trans ?_)
  -- Outside the page neither the erase nor the chunk changes anything.
  rw [patch_window]
  · rfl
  · intro address outside
    have erase : patch (addr / target.pageSize * target.pageSize)
        (List.replicate target.pageSize 0xff) target.flash address = target.flash address :=
      patch_outside (by rw [List.length_replicate]; exact outside)
    have chunk : patch addr (src.take len) target.flash address = target.flash address :=
      patch_outside (by omega)
    exact erase.trans chunk.symm

/-- The loop over the chunks of a section programs all of it. -/
theorem flashLoop_ok {pageSize : Nat} (size : PageSize pageSize) (uninit : Nat → UInt8) :
    ∀ fuel addr (data : List UInt8) (target : Target), target.Ready →
      target.pageSize = pageSize → data.length ≤ fuel → addr + data.length ≤ flashSize →
      flashLoop pageSize uninit fuel addr data target =
        { target with flash := patch addr data target.flash } := by
  -- The induction is on the fuel, of which there is one for each byte.
  intro fuel
  induction fuel with
  | zero =>
    intro addr data target _ _ enough _
    rw [List.length_eq_zero_iff.mp (by omega : data.length = 0), patch_nil]
    rfl
  | succ fuel ih =>
    intro addr data target ready pages enough inside
    subst pages
    by_cases empty : data.length = 0
    · rw [List.length_eq_zero_iff.mp empty, patch_nil]
      rfl
    · obtain ⟨positive, most, _, _⟩ := chunkLen_bounds size inside empty
      have chunk := flashChunk_ok ready size uninit inside empty
      simp only [flashLoop, if_neg empty, chunk]
      generalize chunkLen target.pageSize addr data.length = len at *
      have length : (data.take len).length = len := by
        rw [List.length_take]
        omega
      -- The address of the next chunk does not wrap, as it is still in the flash.
      have next : (addr + len) % 2 ^ 32 = addr + (data.take len).length := by
        rw [length]
        unfold flashSize at inside
        omega
      have rest := ih (addr + (data.take len).length) (data.drop len)
        { target with flash := patch addr (data.take len) target.flash } (ready.withFlash _) rfl
        (by rw [List.length_drop]; omega) (by rw [List.length_drop, length]; omega)
      rw [next, rest, patch_append, List.take_append_drop]

/-- The addresses of a section. -/
def Section.Covers (offset : Nat) (isection : Section) (address : Nat) : Prop :=
  Reaches (isection.flashAddr offset) isection.data address

/-- Programming sections that lie in the flash is writing them one after the other. -/
theorem flashSections_patch {pageSize : Nat} (size : PageSize pageSize) (uninit : Nat → UInt8)
    (offset : Nat) :
    ∀ (sections : List Section) (flash : Nat → UInt8),
      (∀ isection ∈ sections, isection.readable = true ∧
        isection.flashAddr offset + isection.data.length ≤ flashSize) →
      flashSections pageSize uninit offset (.reliable pageSize flash) sections =
        .reliable pageSize (sections.foldl (fun memory isection =>
          patch (isection.flashAddr offset) isection.data memory) flash) := by
  -- The induction is on the sections.
  intro sections
  induction sections with
  | nil => intros; rfl
  | cons isection rest ih =>
    intro flash proper
    obtain ⟨readable, inside⟩ := proper isection List.mem_cons_self
    have programmed := flashLoop_ok size uninit isection.data.length
      (isection.flashAddr offset) isection.data (.reliable pageSize flash) ⟨rfl, rfl⟩ rfl
      (Nat.le_refl _) inside
    -- A section is one step of the fold.
    have step : flashSection pageSize uninit offset (.reliable pageSize flash) isection =
        .reliable pageSize (patch (isection.flashAddr offset) isection.data flash) := by
      rw [flashSection, if_pos readable, programmed]
      rfl
    rw [List.foldl_cons, ← ih _ fun other member => proper other (.tail _ member), ← step]
    rfl

/--
Programming disjoint sections in any order stores every byte of each, and changes no other.

The buffer of a chunk may hold anything before it is filled.
-/
theorem flashSections_exact (pageSize : Nat) (size : pageSize = 512 ∨ pageSize = 1024)
    (uninit : Nat → UInt8) (flash : Nat → UInt8) (offset : Nat) (sections : List Section)
    (proper : ∀ isection ∈ sections, isection.readable = true ∧
      isection.flashAddr offset + isection.data.length ≤ flashSize)
    (disjoint : sections.Pairwise fun first second => ∀ address,
      ¬ (first.Covers offset address ∧ second.Covers offset address)) :
    (∀ isection ∈ sections, ∀ i (inside : i < isection.data.length),
      (flashSections pageSize uninit offset (.reliable pageSize flash) sections).flash
        (isection.flashAddr offset + i) = isection.data[i]) ∧
    ∀ address, (∀ isection ∈ sections, ¬ isection.Covers offset address) →
      (flashSections pageSize uninit offset (.reliable pageSize flash) sections).flash address =
        flash address := by
  -- All sections together are one sequence of writes, and those of the others miss this one.
  rw [flashSections_patch size uninit offset sections flash proper]
  constructor
  · intro isection member i inside
    exact foldl_patch_inside (Section.flashAddr offset) Section.data sections
      flash member disjoint i inside
  · intro address outside
    exact foldl_patch_outside (Section.flashAddr offset) Section.data sections
      flash outside

/-- Two sections that share a page, the first of them across a page boundary. -/
def sharedPage : List Section :=
  [{ lma := 510, data := [1, 2, 3], readable := true },
    { lma := 600, data := [4, 5], readable := true }]

/-- Both sections are found in a flash that was empty before. -/
theorem flashSections_sharedPage :
    (∀ isection ∈ sharedPage, ∀ i (inside : i < isection.data.length),
      (flashSections 512 (fun _ => 0) 0 (.reliable 512 fun _ => 0xff) sharedPage).flash
        (isection.flashAddr 0 + i) = isection.data[i]) ∧
    ∀ address, (∀ isection ∈ sharedPage, ¬ isection.Covers 0 address) →
      (flashSections 512 (fun _ => 0) 0 (.reliable 512 fun _ => 0xff) sharedPage).flash address =
        0xff := by
  -- The sections share a page and no byte.
  refine flashSections_exact 512 (Or.inl rfl) (fun _ => 0) (fun _ => 0xff) 0 sharedPage
    (by decide) ?_
  refine List.pairwise_pair.mpr fun address both => ?_
  obtain ⟨first, second⟩ := both
  simp only [Section.Covers, Reaches, Section.flashAddr, List.length_cons, List.length_nil] at *
  omega

end OpenwrtMisc.C2Tool
