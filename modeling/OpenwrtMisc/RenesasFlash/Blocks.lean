import OpenwrtMisc.RenesasFlash.Program

/-! What is programmed: each block once, in order, from a buffer that no block starts afresh. -/

namespace OpenwrtMisc.RenesasFlash

/-- The first address of the block of an address. -/
def blockOf (size addr : Nat) : Nat := addr / size * size

/-- The buffer after pages were copied to their places in it. -/
def overlay (size : Nat) (pbuf : Nat → UInt8) (pages : List (Nat × Page)) : Nat → UInt8 :=
  pages.foldl (fun pbuf entry => patch (entry.1 % size) (window 0 256 entry.2) pbuf) pbuf

/-- The pages that are in the buffer when a block is programmed. -/
def upTo (size block : Nat) (pages : List (Nat × Page)) : List (Nat × Page) :=
  pages.filter fun entry => entry.1 < block + size

/-- An address lies in its block. -/
theorem blockOf_bounds {size : Nat} (positive : 0 < size) (addr : Nat) :
    blockOf size addr ≤ addr ∧ addr < blockOf size addr + size := by
  -- The address is its block and the remainder by the size.
  have parts := Nat.div_add_mod' addr size
  have offset := Nat.mod_lt addr positive
  unfold blockOf
  omega

/-- The block and the offset in it make up the address. -/
theorem blockOf_add_mod (size addr : Nat) : blockOf size addr + addr % size = addr :=
  Nat.div_add_mod' addr size

/-- Later addresses lie in the same or in later blocks. -/
theorem blockOf_mono (size : Nat) {first second : Nat} (le : first ≤ second) :
    blockOf size first ≤ blockOf size second :=
  Nat.mul_le_mul_right size (Nat.div_le_div_right le)

/-- Different blocks do not overlap. -/
theorem blockOf_add_le {size first second : Nat} (less : blockOf size first < blockOf size second) :
    blockOf size first + size ≤ blockOf size second := by
  -- A block with a greater number starts where the lesser one ends, or behind.
  have quotient : first / size < second / size := Nat.lt_of_mul_lt_mul_right less
  calc blockOf size first + size = (first / size + 1) * size := by rw [blockOf, Nat.succ_mul]
    _ ≤ blockOf size second := Nat.mul_le_mul_right size quotient

/-- Every address from the start of a block to its end lies in that block. -/
theorem blockOf_eq {size base addr : Nat} (positive : 0 < size) (lower : blockOf size base ≤ addr)
    (upper : addr < blockOf size base + size) : blockOf size addr = blockOf size base := by
  have own := blockOf_bounds positive addr
  -- A block before this one ends before it, and a later one starts behind it.
  rcases Nat.lt_trichotomy (blockOf size addr) (blockOf size base) with less | same | more
  · have apart := blockOf_add_le less
    omega
  · exact same
  · have apart := blockOf_add_le more
    omega

/-- Masking with `addr_mask` gives the block, for sizes that are powers of two. -/
theorem and_addrMask {k addr : Nat} (word : k < 64) (small : addr < 2 ^ 64) :
    addr &&& addrMask (2 ^ k) = blockOf (2 ^ k) addr := by
  -- The mask is all ones above the bits of an offset in the block.
  have mask : addrMask (2 ^ k) = 2 ^ 64 - ((2 ^ k - 1) + 1) := by
    have := Nat.one_le_two_pow (n := k)
    unfold addrMask
    omega
  have fits : 2 ^ k - 1 < 2 ^ 64 := by
    have := Nat.pow_le_pow_right (show 0 < 2 by omega) (Nat.le_of_lt word)
    have := Nat.one_le_two_pow (n := k)
    omega
  rw [mask, blockOf]
  -- Bit by bit: the mask keeps the bits from `k` on, and so does the multiple of the quotient.
  refine Nat.eq_of_testBit_eq fun i => ?_
  rw [Nat.testBit_and, Nat.testBit_two_pow_sub_succ fits, Nat.testBit_two_pow_sub_one,
    Nat.testBit_mul_two_pow, Nat.testBit_div_two_pow]
  by_cases above : k ≤ i
  · by_cases inside : i < 64
    · have index : i - k + k = i := by omega
      have high : ¬ i < k := by omega
      simp [above, inside, index, high]
    · have zero : addr.testBit i = false :=
        Nat.testBit_lt_two_pow (Nat.lt_of_lt_of_le small
          (Nat.pow_le_pow_right (by omega) (by omega)))
      have index : i - k + k = i := by omega
      simp [above, inside, index, zero]
  · have low : i < k := by omega
    simp [above, low]

section Run

variable {size : Nat} {readback : Bool} {initial : Programmer}

/-- The device after the blocks below a bound were programmed from the pages so far. -/
structure Logged (size : Nat) (initial : Programmer) (done : List (Nat × Page)) (bound : Nat)
    (blocks : List Nat) (device : Device) : Prop where
  ready : device.Ready
  sorted : blocks.Pairwise (· < ·)
  mem : ∀ block, block ∈ blocks ↔ block < bound ∧ ∃ entry ∈ done, blockOf size entry.1 = block
  log : device.programmed = initial.device.programmed ++ blocks.map fun block =>
    (block, window 0 size (overlay size initial.pbuf (upTo size block done)))
  kept : ∀ x, blockOf size x ∉ blocks → device.memory x = initial.device.memory x

/-- The state between two pages: what is logged, and the block that the buffer is for. -/
structure Progress (size : Nat) (initial : Programmer) (done : List (Nat × Page))
    (blocks : List Nat) (state : Programmer) : Prop where
  logged : Logged size initial done state.pbufAddr blocks state.device
  buffer : state.pbuf = overlay size initial.pbuf done
  dirty : state.pbufDirty = true
  latest : ∀ entry ∈ done, blockOf size entry.1 ≤ state.pbufAddr
  current : ∃ entry ∈ done, blockOf size entry.1 = state.pbufAddr

/-- A page of the bound's own block, or of a later one, leaves what is logged as it is. -/
theorem Logged.push {done : List (Nat × Page)} {blocks : List Nat} {device : Device}
    {entry : Nat × Page} (positive : 0 < size)
    (logged : Logged size initial done (blockOf size entry.1) blocks device) :
    Logged size initial (done ++ [entry]) (blockOf size entry.1) blocks device where
  ready := logged.ready
  sorted := logged.sorted
  mem block := by
    rw [logged.mem]
    constructor
    · rintro ⟨below, other, member, same⟩
      exact ⟨below, other, by simp [member], same⟩
    · rintro ⟨below, other, member, same⟩
      rcases List.mem_append.mp member with old | new
      · exact ⟨below, other, old, same⟩
      · rw [List.mem_singleton] at new
        subst new
        omega
  log := by
    rw [logged.log]
    congr 1
    refine List.map_congr_left fun block member => ?_
    -- The new page lies behind every block that is logged, so it was not in the buffer.
    obtain ⟨below, other, _, same⟩ := (logged.mem block).mp member
    have behind : ¬ entry.1 < block + size := by
      have apart := blockOf_add_le (same ▸ below : blockOf size other.1 < blockOf size entry.1)
      have inside := blockOf_bounds positive entry.1
      omega
    simp [upTo, behind]
  kept := logged.kept

/-- The block of the buffer is not logged yet. -/
theorem Progress.fresh {done : List (Nat × Page)} {blocks : List Nat} {state : Programmer}
    (progress : Progress size initial done blocks state) : state.pbufAddr ∉ blocks := by
  -- The blocks that are logged end before the one of the buffer.
  intro old
  have below := ((progress.logged.mem _).mp old).1
  omega

/-- The addresses under the buffer are those of its block. -/
theorem Progress.mem_block {done : List (Nat × Page)} {blocks : List Nat} {state : Programmer}
    {x : Nat} (positive : 0 < size) (progress : Progress size initial done blocks state)
    (lower : state.pbufAddr ≤ x) (upper : x < state.pbufAddr + size) :
    blockOf size x = state.pbufAddr := by
  -- The buffer stands for the block of the latest page.
  obtain ⟨entry, _, same⟩ := progress.current
  rw [← same] at lower upper ⊢
  exact blockOf_eq positive lower upper

/-- Every page so far is in the buffer, since none lies behind the block. -/
theorem Progress.upTo_eq {done : List (Nat × Page)} {blocks : List Nat} {state : Programmer}
    (positive : 0 < size) (progress : Progress size initial done blocks state) :
    upTo size state.pbufAddr done = done := by
  -- The block of the buffer is the latest of all, so no page is left out.
  refine List.filter_eq_self.mpr fun other old => ?_
  have inside := blockOf_bounds positive other.1
  have le := progress.latest other old
  exact decide_eq_true (by omega)

/-- With the block of the buffer programmed, that block is logged too. -/
theorem Progress.given {done : List (Nat × Page)} {blocks : List Nat} {state : Programmer}
    {bound : Nat} (positive : 0 < size) (progress : Progress size initial done blocks state)
    (above : state.pbufAddr < bound) :
    Logged size initial done bound (blocks ++ [state.pbufAddr])
      (state.device.given state.pbufAddr (window 0 size state.pbuf)) where
  ready := ⟨progress.logged.ready.reliable, .inl rfl⟩
  sorted := by
    refine List.pairwise_append.mpr ⟨progress.logged.sorted, List.pairwise_singleton _ _, ?_⟩
    intro block old other last
    rw [List.mem_singleton] at last
    rw [last]
    exact ((progress.logged.mem block).mp old).1
  mem block := by
    rw [List.mem_append, List.mem_singleton, progress.logged.mem]
    constructor
    · rintro (⟨below, others⟩ | rfl)
      · exact ⟨Nat.lt_trans below above, others⟩
      · exact ⟨above, progress.current⟩
    · rintro ⟨_, other, old, here⟩
      -- A page so far lies in the block of the buffer or before it.
      have le := progress.latest other old
      by_cases last : block = state.pbufAddr
      · exact .inr last
      · exact .inl ⟨by omega, other, old, here⟩
  log := by
    simp only [Device.given, progress.logged.log, List.map_append, List.map_cons, List.map_nil,
      List.append_assoc, progress.upTo_eq positive, progress.buffer]
  kept x outside := by
    rw [List.mem_append, List.mem_singleton, not_or] at outside
    have apart : x < state.pbufAddr ∨ state.pbufAddr + size ≤ x := by
      by_contra inside
      exact outside.2 (progress.mem_block positive (by omega) (by omega))
    simp only [Device.given]
    rw [patch_outside (by simpa using apart)]
    exact progress.logged.kept x outside.1

/-- Programming the block of the buffer logs that block. -/
theorem Progress.flush {done : List (Nat × Page)} {blocks : List Nat} {state : Programmer}
    {bound : Nat} (positive : 0 < size)
    (blank : readback = true → ∀ x, initial.device.memory x = 0xff)
    (progress : Progress size initial done blocks state) (above : state.pbufAddr < bound) :
    ∃ next, state.flush size readback = some next ∧
      next.pbuf = state.pbuf ∧ next.pbufDirty = false ∧
      Logged size initial done bound (blocks ++ [state.pbufAddr]) next.device := by
  -- Nothing was written to the block so far, so the memory there is what it was at the start.
  have erased : readback = true → ∀ x, state.pbufAddr ≤ x → x < state.pbufAddr + size →
      state.device.memory x = 0xff := by
    intro reads x lower upper
    have here := progress.mem_block positive lower upper
    rw [progress.logged.kept x (here ▸ progress.fresh), blank reads]
  have flushed : state.flush size readback = some { state with
      device := state.device.given state.pbufAddr (window 0 size state.pbuf)
      pbufDirty := false } := by
    rw [Programmer.flush, Device.programArea_ready progress.logged.ready erased, Option.map_some]
  exact ⟨_, flushed, rfl, rfl, progress.given positive above⟩

/-- A page that goes into the buffer is the latest one there. -/
theorem Logged.stage {done : List (Nat × Page)} {blocks : List Nat} {state : Programmer}
    {entry : Nat × Page} (positive : 0 < size)
    (logged : Logged size initial done (blockOf size entry.1) blocks state.device)
    (buffer : state.pbuf = overlay size initial.pbuf done)
    (ordered : ∀ other ∈ done, other.1 < entry.1) :
    Progress size initial (done ++ [entry]) blocks { state with
      pbuf := patch (entry.1 % size) (window 0 256 entry.2) state.pbuf
      pbufAddr := blockOf size entry.1
      pbufDirty := true } := by
  -- The page is laid over the buffer, and the log is as it was.
  refine ⟨logged.push positive, ?_, rfl, ?_, entry, by simp, rfl⟩
  · simp [overlay, buffer]
  · -- Pages come in the order of their addresses, and blocks keep that order.
    intro other member
    rcases List.mem_append.mp member with old | new
    · exact blockOf_mono size (Nat.le_of_lt (ordered other old))
    · rw [List.mem_singleton] at new
      rw [new]

variable (mask : ∀ addr, addr < 2 ^ 32 → addr &&& addrMask size = blockOf size addr)
include mask

/-- A page of the block at hand is added, and a page of another one first writes that block. -/
theorem Progress.page {done : List (Nat × Page)} {blocks : List Nat} {state : Programmer}
    {entry : Nat × Page} (positive : 0 < size) (small : entry.1 < 2 ^ 32)
    (blank : readback = true → ∀ x, initial.device.memory x = 0xff)
    (progress : Progress size initial done blocks state)
    (ordered : ∀ other ∈ done, other.1 < entry.1) :
    ∃ next blocks', programPage size readback entry.1 entry.2 state = some next ∧
      Progress size initial (done ++ [entry]) blocks' next := by
  -- The page belongs to the block at hand, or to one behind it.
  obtain ⟨last, member, same⟩ := progress.current
  by_cases here : blockOf size entry.1 = state.pbufAddr
  · -- The buffer goes on with the same block.
    have stays : ¬ (state.pbufDirty = true ∧ blockOf size entry.1 ≠ state.pbufAddr) :=
      fun other => other.2 here
    have logged : Logged size initial done (blockOf size entry.1) blocks state.device :=
      here ▸ progress.logged
    refine ⟨_, blocks, ?_, logged.stage positive progress.buffer ordered⟩
    simp only [programPage, mask _ small, if_neg stays, Option.map_some]
  · -- The block of the buffer is complete, since this page already lies behind it.
    have le := blockOf_mono size (Nat.le_of_lt (ordered last member))
    have above : state.pbufAddr < blockOf size entry.1 := by omega
    obtain ⟨flushed, wrote, buffer, clean, logged⟩ := progress.flush positive blank above
    refine ⟨_, _, ?_, logged.stage positive (buffer.trans progress.buffer) ordered⟩
    have leaves : state.pbufDirty = true ∧ blockOf size entry.1 ≠ state.pbufAddr :=
      ⟨progress.dirty, here⟩
    simp only [programPage, mask _ small, if_pos leaves, wrote, Option.map_some]

/-- From a state between two pages the loops go through all the pages that are left. -/
theorem Progress.pages {rest done : List (Nat × Page)} {blocks : List Nat} {state : Programmer}
    (positive : 0 < size) (blank : readback = true → ∀ x, initial.device.memory x = 0xff)
    (progress : Progress size initial done blocks state)
    (small : ∀ entry ∈ rest, entry.1 < 2 ^ 32)
    (sorted : (done ++ rest).Pairwise fun first second => first.1 < second.1) :
    ∃ last blocks', rest.foldlM (fun state entry =>
        programPage size readback entry.1 entry.2 state) state = some last ∧
      Progress size initial (done ++ rest) blocks' last := by
  -- The pages that are left become, one by one, pages that are done.
  induction rest generalizing done blocks state with
  | nil => exact ⟨state, blocks, rfl, by simpa using progress⟩
  | cons entry rest ih =>
    have ordered : ∀ other ∈ done, other.1 < entry.1 := fun other member =>
      (List.pairwise_append.mp sorted).2.2 other member entry (by simp)
    obtain ⟨next, blocks, stepped, progress⟩ :=
      progress.page mask positive (small entry (by simp)) blank ordered
    obtain ⟨last, blocks, ran, progress⟩ :=
      ih progress (fun other member => small other (by simp [member])) (by simpa using sorted)
    refine ⟨last, blocks, ?_, by simpa using progress⟩
    rw [List.foldlM_cons, stepped]
    exact ran

/-- The whole run: each block that has a page is programmed once, in increasing order. -/
theorem programAllAreas_logged {progmem : Progmem} (positive : 0 < size)
    (ready : initial.device.Ready)
    (blank : readback = true → ∀ x, initial.device.memory x = 0xff) :
    ∃ last blocks, programAllAreas size readback progmem initial = some last ∧
      Logged size initial (pagesOf progmem) (2 ^ 32) blocks last.device := by
  -- The walk is a fold over the pages in their order, which is that of the blocks.
  have small : ∀ entry ∈ pagesOf progmem, entry.1 < 2 ^ 32 :=
    fun entry member => (mem_pagesOf.mp member).2.1
  have sorted := pagesOf_sorted progmem
  rw [programAllAreas_eq]
  revert small sorted
  generalize pagesOf progmem = pages
  intro small sorted
  have nothing (bound : Nat) : Logged size initial [] bound [] initial.device :=
    ⟨ready, List.Pairwise.nil, by simp, by simp, fun _ _ => rfl⟩
  cases pages with
  | nil => exact ⟨_, [], rfl, nothing _⟩
  | cons entry rest =>
    -- The first page finds the buffer clean, so that nothing is written before it.
    have buffer : ({ initial with pbufDirty := false } : Programmer).pbuf =
        overlay size initial.pbuf [] := rfl
    have progress := (nothing (blockOf size entry.1)).stage positive buffer (by simp)
    have first : programPage size readback entry.1 entry.2 { initial with pbufDirty := false } =
        some { initial with
          pbuf := patch (entry.1 % size) (window 0 256 entry.2) initial.pbuf
          pbufAddr := blockOf size entry.1
          pbufDirty := true } := by
      simp [programPage, mask _ (small entry (by simp))]
    obtain ⟨last, blocks, ran, progress⟩ := progress.pages mask positive blank
      (fun other member => small other (List.mem_cons_of_mem _ member)) sorted
    obtain ⟨final, member, same⟩ := progress.current
    have above : last.pbufAddr < 2 ^ 32 := by
      have below := (blockOf_bounds positive final.1).1
      have inside := small final member
      omega
    obtain ⟨flushed, wrote, _, _, logged⟩ := progress.flush positive blank above
    refine ⟨flushed, _, ?_, logged⟩
    rw [List.foldlM_cons, first]
    simp only [Option.bind_eq_bind, Option.bind_some, ran, progress.dirty, if_true, wrote]

end Run

end OpenwrtMisc.RenesasFlash
