import Mathlib.Data.Nat.Bitwise
import OpenwrtMisc.RenesasFlash.Area
import OpenwrtMisc.RenesasFlash.Progmem

/-! Programming of a whole image, block by block, with one buffer for all blocks. -/

namespace OpenwrtMisc.RenesasFlash

/-- The chip: its memory, what it waits for, which commands fail, and the blocks it was given. -/
structure Device where
  memory : Nat → UInt8
  bootWait : Nat
  fails : Nat → Bool
  programmed : List (Nat × List UInt8)

/-- `rx_command`: whether the next command succeeds, and the device after it. -/
def Device.command (device : Device) : Bool × Device :=
  (!device.fails 0, { device with fails := fun n => device.fails (n + 1) })

/-- `rxlib_status`. -/
def rxlibStatus (device : Device) : Option Nat × Device :=
  match device.command with
  | (true, device) => (some device.bootWait, device)
  | (false, device) => (none, device)

/-- `rxlib_read_memory`. -/
def rxlibReadMemory (address count : Nat) (device : Device) : Option (Nat → UInt8) × Device :=
  match device.command with
  | (true, device) => (some fun i => (window address count device.memory).getD i 0, device)
  | (false, device) => (none, device)

/-- `rxlib_begin_user_flash`, whose result nothing looks at. -/
def rxlibBeginUserFlash (device : Device) : Device :=
  match device.command with
  | (true, device) => { device with bootWait := bwaitProgrammingData }
  | (false, device) => device

/-- `rxlib_program_block`; a block that is refused changes nothing. -/
def rxlibProgramBlock (address : Nat) (data : List UInt8) (device : Device) : Bool × Device :=
  match device.command with
  | (true, device) =>
    (true, { device with
      memory := patch address data device.memory
      programmed := device.programmed ++ [(address, data)] })
  | (false, device) => (false, device)

/-- `rxlib_done_programming`, whose result nothing looks at. -/
def rxlibDoneProgramming (device : Device) : Device :=
  match device.command with
  | (true, device) => { device with bootWait := bwaitProgrammingSelection }
  | (false, device) => device

/-- The functions of rxlib on such a chip. -/
def rxlib : Chip Device where
  status := rxlibStatus
  readMemory := rxlibReadMemory
  beginUserFlash := rxlibBeginUserFlash
  programBlock := rxlibProgramBlock
  doneProgramming := rxlibDoneProgramming

/--
`program_one_area` on such a chip; no result is its `exit`.

The chip reads back what it was given, so four turns of the loop are always enough.
-/
def Device.programArea (programmingSize : Nat) (readback : Bool) (pbuf : Nat → UInt8) (addr : Nat)
    (device : Device) : Option Device :=
  match programOneArea rxlib programmingSize readback pbuf addr 4 device with
  | some ⟨true, device, _⟩ => some device
  | _ => none

/-- `pbuf`, the block it is for, whether it waits to be programmed, and the chip. -/
structure Programmer where
  pbuf : Nat → UInt8
  pbufAddr : Nat
  pbufDirty : Bool
  device : Device

/-- `addr_mask`, an `unsigned long`. -/
def addrMask (programmingSize : Nat) : Nat := 2 ^ 64 - 1 - (programmingSize - 1)

/-- The address of a page. -/
def pageAddr (a b c : Nat) : Nat := a <<< 24 ||| b <<< 16 ||| c <<< 8

/-- The write of a waiting block. -/
def Programmer.flush (programmingSize : Nat) (readback : Bool) (state : Programmer) :
    Option Programmer :=
  (state.device.programArea programmingSize readback state.pbuf state.pbufAddr).map
    fun device => { state with device := device, pbufDirty := false }

/-- What the loops of `program_all_areas` do for one page. -/
def programPage (programmingSize : Nat) (readback : Bool) (addr : Nat) (page : Page)
    (state : Programmer) : Option Programmer :=
  let left :=
    if state.pbufDirty ∧ addr &&& addrMask programmingSize ≠ state.pbufAddr then
      state.flush programmingSize readback
    else some state
  left.map fun state => { state with
    pbuf := patch (addr % programmingSize) (window 0 256 page) state.pbuf
    pbufAddr := addr &&& addrMask programmingSize
    pbufDirty := true }

/-- One of the three loops, which skips the entries that are null. -/
def forTable {α : Type} (table : Nat → Option α) (body : Nat → α → Programmer → Option Programmer)
    (state : Programmer) : Option Programmer :=
  (List.range 256).foldlM (fun state i =>
    match table i with
    | none => some state
    | some entry => body i entry state) state

/-- `program_all_areas`. -/
def programAllAreas (programmingSize : Nat) (readback : Bool) (progmem : Progmem)
    (state : Programmer) : Option Programmer :=
  let left := forTable progmem (fun a tables => forTable tables fun b columns =>
    forTable columns fun c page => programPage programmingSize readback (pageAddr a b c) page)
    { state with pbufDirty := false }
  left.bind fun state =>
    if state.pbufDirty then state.flush programmingSize readback else some state

/-- What a table holds in the end, entry by entry in increasing order. -/
def gather {α β : Type} (table : Nat → Option α) (items : Nat → α → List β) : List β :=
  (List.range 256).flatMap fun i => (table i).elim [] (items i)

/-- The pages of an image with their addresses, in the order of the loops. -/
def pagesOf (progmem : Progmem) : List (Nat × Page) :=
  gather progmem fun a tables => gather tables fun b columns =>
    gather columns fun c page => [(pageAddr a b c, page)]

/-- An item of a table is an item of one of its entries. -/
theorem mem_gather {α β : Type} {table : Nat → Option α} {items : Nat → α → List β} {item : β} :
    item ∈ gather table items ↔
      ∃ i < 256, ∃ entry, table i = some entry ∧ item ∈ items i entry := by
  simp only [gather, List.mem_flatMap, List.mem_range]
  -- Both ways the entry is there, since a null one has no items.
  constructor
  · rintro ⟨i, inside, member⟩
    cases found : table i with
    | none => simp [found] at member
    | some entry => exact ⟨i, inside, entry, found, by simpa [found] using member⟩
  · rintro ⟨i, inside, entry, found, member⟩
    exact ⟨i, inside, by simpa [found] using member⟩

/-- A table is in order when its entries are, and all of one entry is before all of the next. -/
theorem pairwise_gather {α β : Type} {table : Nat → Option α} {items : Nat → α → List β}
    {before : β → β → Prop}
    (within : ∀ i entry, i < 256 → table i = some entry → (items i entry).Pairwise before)
    (across : ∀ i j first second, i < j → j < 256 → table i = some first → table j = some second →
      ∀ x ∈ items i first, ∀ y ∈ items j second, before x y) :
    (gather table items).Pairwise before := by
  -- The list is a concatenation, so both parts are asked for: within an entry, and between two.
  rw [gather, List.pairwise_flatMap]
  constructor
  · -- A null entry holds nothing.
    intro i member
    rw [List.mem_range] at member
    cases found : table i with
    | none => simp
    | some entry => simpa using within i entry member found
  · -- The indices come in order, so two items of different entries have different indices.
    refine List.Pairwise.imp_of_mem ?_ List.pairwise_lt_range
    intro i j _ member less x inFirst y inSecond
    rw [List.mem_range] at member
    cases foundFirst : table i with
    | none => simp [foundFirst] at inFirst
    | some first =>
      cases foundSecond : table j with
      | none => simp [foundSecond] at inSecond
      | some second =>
        rw [foundFirst] at inFirst
        rw [foundSecond] at inSecond
        exact across i j first second less member foundFirst foundSecond x inFirst y inSecond

/-- A loop over lists is the loop over their concatenation. -/
theorem foldlM_flatMap {α β σ : Type} (f : α → List β) (step : σ → β → Option σ) (entries : List α)
    (state : σ) :
    entries.foldlM (fun state entry => (f entry).foldlM step state) state =
      (entries.flatMap f).foldlM step state := by
  -- The induction is on the lists, the first of which is gone through before the others.
  induction entries generalizing state with
  | nil => rfl
  | cons entry entries ih =>
    simp only [List.foldlM_cons, List.flatMap_cons, List.foldlM_append, ih]

/-- A loop over a table goes through what the table holds. -/
theorem forTable_eq {α β : Type} {table : Nat → Option α} {items : Nat → α → List β}
    {body : Nat → α → Programmer → Option Programmer} {step : Programmer → β → Option Programmer}
    (each : ∀ i entry state, body i entry state = (items i entry).foldlM step state)
    (state : Programmer) :
    forTable table body state = (gather table items).foldlM step state := by
  -- A null entry is skipped, which is the loop over no items.
  rw [forTable, gather, ← foldlM_flatMap]
  congr 1
  funext state i
  cases table i with
  | none => rfl
  | some entry => exact each i entry state

/-- The three loops go through the pages. -/
theorem programAllAreas_eq (programmingSize : Nat) (readback : Bool) (progmem : Progmem)
    (state : Programmer) :
    programAllAreas programmingSize readback progmem state =
      ((pagesOf progmem).foldlM (fun state entry =>
        programPage programmingSize readback entry.1 entry.2 state)
        { state with pbufDirty := false }).bind fun state =>
          if state.pbufDirty then state.flush programmingSize readback else some state := by
  simp only [programAllAreas, pagesOf]
  congr 1
  -- Each loop is over the entries of its table, and the innermost body is a step of one page.
  refine forTable_eq (fun a tables state => ?_) _
  refine forTable_eq (fun b columns state => ?_) _
  refine forTable_eq (fun c page state => ?_) _
  simp

/-- The address of a page as a number to base 256. -/
theorem pageAddr_eq {a b c : Nat} (second : b < 256) (third : c < 256) :
    pageAddr a b c = a * 2 ^ 24 + b * 2 ^ 16 + c * 2 ^ 8 := by
  -- Each index lies below the bits of the one before, so that `or` adds them.
  have low : c <<< 8 < 2 ^ 16 := by rw [Nat.shiftLeft_eq]; omega
  have middle : b <<< 16 ||| c <<< 8 = b <<< 16 + c <<< 8 :=
    (Nat.shiftLeft_add_eq_or_of_lt low b).symm
  have bound : b <<< 16 ||| c <<< 8 < 2 ^ 24 := by
    rw [middle, Nat.shiftLeft_eq, Nat.shiftLeft_eq]
    omega
  rw [pageAddr, Nat.or_assoc, ← Nat.shiftLeft_add_eq_or_of_lt bound a, middle,
    Nat.shiftLeft_eq, Nat.shiftLeft_eq, Nat.shiftLeft_eq]
  omega

/-- The pages of an image are those at the multiples of 256 below 4 GiB. -/
theorem mem_pagesOf {progmem : Progmem} {addr : Nat} {page : Page} :
    (addr, page) ∈ pagesOf progmem ↔
      addr % 256 = 0 ∧ addr < 2 ^ 32 ∧ pageAt progmem addr = some page := by
  -- A page is found over three tables, by one index in each of them.
  simp only [pagesOf, mem_gather, List.mem_singleton, Prod.mk.injEq]
  constructor
  · rintro ⟨a, first, tables, foundTables, b, second, columns, foundColumns, c, third, last,
      foundPage, rfl, rfl⟩
    rw [pageAddr_eq second third]
    refine ⟨by omega, by omega, ?_⟩
    -- The three indices are the upper bytes of the address that they make up.
    have upper : high (a * 2 ^ 24 + b * 2 ^ 16 + c * 2 ^ 8) = a := by rw [high_eq]; omega
    have middle : midh (a * 2 ^ 24 + b * 2 ^ 16 + c * 2 ^ 8) = b := by rw [midh_eq]; omega
    have lower : midl (a * 2 ^ 24 + b * 2 ^ 16 + c * 2 ^ 8) = c := by rw [midl_eq]; omega
    rw [pageAt, upper, middle, lower, foundTables, Option.bind_some, foundColumns,
      Option.bind_some, foundPage]
  · rintro ⟨aligned, small, found⟩
    simp only [pageAt, Option.bind_eq_some_iff] at found
    obtain ⟨tables, foundTables, columns, foundColumns, foundPage⟩ := found
    have second : midh addr < 256 := by rw [midh_eq]; omega
    have third : midl addr < 256 := by rw [midl_eq]; omega
    refine ⟨high addr, by rw [high_eq]; omega, tables, foundTables, midh addr, second, columns,
      foundColumns, midl addr, third, page, foundPage, ?_, rfl⟩
    rw [pageAddr_eq second third, high_eq, midh_eq, midl_eq]
    omega

/-- The pages of one inner table lie in 64 KiB. -/
theorem mem_columns {a b : Nat} {columns : Columns} {entry : Nat × Page} (second : b < 256)
    (member : entry ∈ gather columns fun c page => [(pageAddr a b c, page)]) :
    a * 0x1000000 + b * 0x10000 ≤ entry.1 ∧
      entry.1 < a * 0x1000000 + (b + 1) * 0x10000 := by
  -- The third byte of the address is less than 256, and the last one is zero.
  obtain ⟨c, third, page, _, member⟩ := mem_gather.mp member
  rw [List.mem_singleton] at member
  subst member
  rw [pageAddr_eq second third]
  omega

/-- The pages of one middle table lie in 16 MiB. -/
theorem mem_tables {a : Nat} {tables : Tables} {entry : Nat × Page}
    (member : entry ∈ gather tables fun b columns =>
      gather columns fun c page => [(pageAddr a b c, page)]) :
    a * 0x1000000 ≤ entry.1 ∧ entry.1 < (a + 1) * 0x1000000 := by
  obtain ⟨b, second, columns, _, member⟩ := mem_gather.mp member
  -- The last of the 256 inner tables ends where the next middle table starts.
  have within : a * 0x1000000 + (b + 1) * 0x10000 ≤ (a + 1) * 0x1000000 := by omega
  obtain ⟨lower, upper⟩ := mem_columns second member
  exact ⟨Nat.le_trans (Nat.le_add_right _ _) lower, Nat.lt_of_lt_of_le upper within⟩

/-- The loops go through the pages in increasing order. -/
theorem pagesOf_sorted (progmem : Progmem) :
    (pagesOf progmem).Pairwise fun first second => first.1 < second.1 := by
  -- The outer index decides first, then the middle one, then the inner one.
  rw [pagesOf]
  refine pairwise_gather (fun a tables _ _ => ?_) ?_
  · refine pairwise_gather (fun b columns second _ => ?_) ?_
    · refine pairwise_gather (fun c page _ _ => by simp) ?_
      intro c c' page page' less inside _ _ x xMember y yMember
      rw [List.mem_singleton] at xMember yMember
      subst xMember yMember
      rw [pageAddr_eq second (by omega), pageAddr_eq second inside]
      omega
    · intro b b' columns columns' less inside _ _ x xMember y yMember
      have first := mem_columns (by omega) xMember
      have second := mem_columns inside yMember
      omega
  · intro a a' tables tables' less _ _ _ x xMember y yMember
    have first := (mem_tables xMember).2
    have second := (mem_tables yMember).1
    omega

/-- A buffer that was read shows the cells of the memory. -/
theorem getD_window {start count i : Nat} (inside : i < count) (memory : Nat → UInt8) :
    (window start count memory).getD i 0 = memory (start + i) := by
  -- A place inside the window is not filled up with zero.
  rw [List.getD_eq_getElem?_getD, getElem?_window, if_pos inside]
  rfl

/-- A block that was taken is read back as it is. -/
theorem getD_window_patch {count i : Nat} (inside : i < count) (addr : Nat)
    (pbuf memory : Nat → UInt8) :
    (window addr count (patch addr (window 0 count pbuf) memory)).getD i 0 = pbuf i := by
  -- Each cell of the block was patched with the byte of the buffer.
  have cell : (window 0 count pbuf)[i]? = some (pbuf i) := by
    rw [getElem?_window, if_pos inside, Nat.zero_add]
  rw [getD_window inside, patch, if_pos (Nat.le_add_right _ _), Nat.add_sub_cancel_left, cell]
  rfl

/-- A block that was taken is in memory. -/
theorem rxlibProgramBlock_memory {addr : Nat} {data : List UInt8} {device after : Device}
    (taken : rxlibProgramBlock addr data device = (true, after)) :
    after.memory = patch addr data device.memory := by
  -- A command that fails reports it, so a taken block is one whose command did not.
  unfold rxlibProgramBlock Device.command at taken
  cases fails : device.fails 0 with
  | true =>
    rw [fails] at taken
    cases taken
  | false =>
    rw [fails] at taken
    cases taken
    rfl

/-- The end of the programming leaves the memory alone. -/
theorem rxlibDoneProgramming_memory (device : Device) :
    (rxlibDoneProgramming device).memory = device.memory := by
  -- Whether the last command fails or not, it carries no data.
  unfold rxlibDoneProgramming Device.command
  cases device.fails 0 <;> rfl

/-- What is read is what is in memory. -/
theorem rxlibReadMemory_memory {addr count : Nat} {device after : Device} {rbuf : Nat → UInt8}
    (read : rxlibReadMemory addr count device = (some rbuf, after)) :
    rbuf = fun i => (window addr count device.memory).getD i 0 := by
  -- A read that gives a buffer is one whose command did not fail.
  unfold rxlibReadMemory Device.command at read
  cases fails : device.fails 0 with
  | true =>
    rw [fails] at read
    cases read
  | false =>
    rw [fails] at read
    cases read
    rfl

/-- No block that such a chip has taken reads differently. -/
theorem verdictAt_rxlib (programmingSize : Nat) (readback : Bool) (pbuf : Nat → UInt8) (addr : Nat)
    (device : Device) (index : Nat) :
    verdictAt rxlib programmingSize readback pbuf addr 0 device ≠ .differs index := by
  -- What was programmed is what is read back, so no byte can differ.
  show ((attemptProgram rxlib programmingSize readback pbuf addr device).1.verdict
    programmingSize readback pbuf) ≠ .differs index
  unfold attemptProgram
  dsimp only [rxlib]
  rcases taken : rxlibProgramBlock addr (window 0 programmingSize pbuf)
    (rxlibBeginUserFlash device) with ⟨_ | _, after⟩
  · exact nofun
  · cases readback with
    | false => exact nofun
    | true =>
      dsimp only [Bool.and_self, if_true]
      rcases read : rxlibReadMemory addr programmingSize (rxlibDoneProgramming after) with
        ⟨_ | rbuf, last⟩
      · exact nofun
      · -- The memory that is read holds the block that was put there.
        have same : firstDifference programmingSize rbuf pbuf = none := by
          refine firstDifference_eq_none.mpr fun i inside => ?_
          rw [rxlibReadMemory_memory read, rxlibDoneProgramming_memory,
            rxlibProgramBlock_memory taken]
          exact getD_window_patch inside addr pbuf _
        have good : (Attempt.mk true (some rbuf)).verdict programmingSize true pbuf = .good := by
          unfold Attempt.verdict
          dsimp only
          rw [same]
          rfl
        exact fun differs => absurd (good.symm.trans differs) nofun

/-- Four turns of the loop are enough, as every attempt that is repeated was counted. -/
theorem tryProgram_rxlib (programmingSize : Nat) (readback : Bool) (pbuf : Nat → UInt8)
    (addr : Nat) : ∀ (turns i : Nat) (device : Device), 3 ≤ i + turns →
      (tryProgram rxlib programmingSize readback pbuf addr (turns + 1) i device).isSome := by
  -- The induction is on the turns, each of which raises the count or is the last one.
  intro turns
  induction turns with
  | zero =>
    intro i device enough
    rw [tryProgram_exits (Nat.add_zero i ▸ enough)]
    rfl
  | succ turns ih =>
    intro i device enough
    by_cases below : i < 3
    · cases verdict : (verdictAt rxlib programmingSize readback pbuf addr 0 device).next i with
      | none =>
        rw [tryProgram_last below verdict]
        rfl
      | some next =>
        rw [tryProgram_next below verdict, Option.isSome_map]
        rcases Verdict.next_eq_some.mp verdict with ⟨_, rfl⟩ | ⟨index, differs, _⟩
        · exact ih (i + 1) _ (by omega)
        · exact absurd differs (verdictAt_rxlib programmingSize readback pbuf addr device index)
    · rw [tryProgram_exits (by omega)]
      rfl

/-- A device whose commands all succeed and which waits for a block. -/
structure Device.Ready (device : Device) : Prop where
  reliable : ∀ n, device.fails n = false
  waits : device.bootWait = bwaitProgrammingSelection ∨ device.bootWait = bwaitProgrammingData

/-- A command of such a device succeeds and leaves it as it is. -/
theorem Device.command_reliable {device : Device} (reliable : ∀ n, device.fails n = false) :
    device.command = (true, device) := by
  -- The commands behind it are as reliable as this one.
  have same : (fun n => device.fails (n + 1)) = device.fails := by
    funext n
    rw [reliable, reliable]
  rw [Device.command, same, reliable]
  rfl

/-- A reliable read returns what is in memory. -/
theorem rxlibReadMemory_reliable {device : Device} (reliable : ∀ n, device.fails n = false)
    (address count : Nat) :
    rxlibReadMemory address count device =
      (some fun i => (window address count device.memory).getD i 0, device) := by
  simp only [rxlibReadMemory, Device.command_reliable reliable]

/-- A reliable block is put into memory. -/
theorem rxlibProgramBlock_reliable {device : Device} (reliable : ∀ n, device.fails n = false)
    (address : Nat) (data : List UInt8) :
    rxlibProgramBlock address data device = (true, { device with
      memory := patch address data device.memory
      programmed := device.programmed ++ [(address, data)] }) := by
  simp only [rxlibProgramBlock, Device.command_reliable reliable]

/-- What a device that was given a block has become. -/
def Device.given (device : Device) (addr : Nat) (data : List UInt8) : Device :=
  { device with
    memory := patch addr data device.memory
    bootWait := bwaitProgrammingSelection
    programmed := device.programmed ++ [(addr, data)] }

/-- The calls of an attempt give a reliable device the block. -/
theorem attemptProgram_reliable (programmingSize : Nat) (readback : Bool) (pbuf : Nat → UInt8)
    (addr : Nat) {device : Device} (reliable : ∀ n, device.fails n = false) :
    (attemptProgram rxlib programmingSize readback pbuf addr device).1.programmed = true ∧
      (readback = true →
        (attemptProgram rxlib programmingSize readback pbuf addr device).1.readBack =
          some fun i => (window addr programmingSize
            (patch addr (window 0 programmingSize pbuf) device.memory)).getD i 0) ∧
      (attemptProgram rxlib programmingSize readback pbuf addr device).2 =
        device.given addr (window 0 programmingSize pbuf) := by
  -- Each call of the attempt is a command that does not fail, so the device follows them all.
  have begun : (rxlibBeginUserFlash device).fails = device.fails := by
    simp only [rxlibBeginUserFlash, Device.command_reliable reliable]
  have finished (other : Device) (fine : ∀ n, other.fails n = false) :
      rxlibDoneProgramming other = { other with bootWait := bwaitProgrammingSelection } := by
    simp only [rxlibDoneProgramming, Device.command_reliable fine]
  have wrote : rxlibProgramBlock addr (window 0 programmingSize pbuf) (rxlibBeginUserFlash device) =
      (true, { device.given addr (window 0 programmingSize pbuf) with
        bootWait := bwaitProgrammingData }) := by
    rw [rxlibProgramBlock_reliable (by simpa only [begun] using reliable)]
    simp only [rxlibBeginUserFlash, Device.command_reliable reliable, Device.given]
  -- What `rxlib_done_programming` leaves in `boot_wait` is there whatever it was before.
  have ended : rxlibDoneProgramming { device.given addr (window 0 programmingSize pbuf) with
      bootWait := bwaitProgrammingData } = device.given addr (window 0 programmingSize pbuf) :=
    finished _ reliable
  have read := rxlibReadMemory_reliable
    (show ∀ n, (device.given addr (window 0 programmingSize pbuf)).fails n = false from reliable)
    addr programmingSize
  unfold attemptProgram
  dsimp only [rxlib]
  rw [wrote]
  dsimp only
  rw [ended]
  cases readback with
  | false => exact ⟨rfl, nofun, rfl⟩
  | true =>
    rw [Bool.and_self, if_pos rfl, read]
    exact ⟨rfl, fun _ => rfl, rfl⟩

/-- A block that reads 0xff throughout passes for erased. -/
theorem checkErased_blank {programmingSize addr : Nat} {readback : Bool} {device : Device}
    (reliable : ∀ n, device.fails n = false)
    (erased : readback = true →
      ∀ x, addr ≤ x → x < addr + programmingSize → device.memory x = 0xff) :
    checkErased rxlib programmingSize readback addr device = (true, device) := by
  -- Without a read back nothing is compared.
  cases readback with
  | false => rfl
  | true =>
    -- Each byte that is read back is a cell of the block.
    have all : ((List.range programmingSize).all fun i =>
        (window addr programmingSize device.memory).getD i 0 == 0xff) = true := by
      rw [List.all_eq_true]
      intro i member
      have inside := List.mem_range.mp member
      rw [getD_window inside, erased rfl _ (by omega) (by omega)]
      rfl
    simp only [checkErased, rxlib, if_true, rxlibReadMemory_reliable reliable, all]

/-- A ready device that is still erased, where that is looked at, takes the block. -/
theorem Device.programArea_ready {programmingSize addr : Nat} {readback : Bool}
    {pbuf : Nat → UInt8} {device : Device} (ready : device.Ready)
    (erased : readback = true →
      ∀ x, addr ≤ x → x < addr + programmingSize → device.memory x = 0xff) :
    device.programArea programmingSize readback pbuf addr =
      some (device.given addr (window 0 programmingSize pbuf)) := by
  -- Every command succeeds, so that the first attempt is a good one.
  have command := Device.command_reliable ready.reliable
  have waits : ¬ (device.bootWait ≠ bwaitProgrammingSelection ∧
      device.bootWait ≠ bwaitProgrammingData) := by
    rcases ready.waits with waits | waits <;> simp [waits]
  have prepared : prepareArea rxlib programmingSize readback addr device = (true, device) := by
    simp only [prepareArea, rxlib, rxlibStatus, command, if_neg waits]
    exact checkErased_blank ready.reliable erased
  obtain ⟨programmed, back, given⟩ :=
    attemptProgram_reliable programmingSize readback pbuf addr ready.reliable
  have good : verdictAt rxlib programmingSize readback pbuf addr 0 device = .good :=
    Attempt.verdict_eq_good.mpr ⟨programmed, fun readback =>
      ⟨_, back readback, fun i inside => getD_window_patch inside addr pbuf _⟩⟩
  have ran : programOneArea rxlib programmingSize readback pbuf addr 4 device =
      some ⟨true, device.given addr (window 0 programmingSize pbuf),
        [(attemptProgram rxlib programmingSize readback pbuf addr device).1]⟩ := by
    unfold programOneArea
    rw [prepared]
    dsimp only
    rw [tryProgram_last (by decide) (by rw [good]; rfl), ← given, good]
    rfl
  unfold Device.programArea
  rw [ran]

end OpenwrtMisc.RenesasFlash
