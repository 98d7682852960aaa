import Mathlib.Data.Nat.Find
import OpenwrtMisc.RenesasFlash.Blocks

/-! When the programmed blocks are the image, with every byte that was not loaded left erased. -/

namespace OpenwrtMisc.RenesasFlash

/-- The byte that an address should have: the one last loaded there, or the erased one. -/
def imageByte (pairs : List (Nat × UInt8)) (addr : Nat) : UInt8 :=
  (lastLoaded pairs addr).getD 0xff

/-- Each block with a loaded page is programmed once, in increasing order, with the image. -/
def ProgramsImage (size : Nat) (readback : Bool) (loads : List Load) (programmer : Programmer) :
    Prop :=
  ∃ (last : Programmer) (blocks : List Nat),
    programAllAreas size readback (loadAll loads) programmer = some last ∧
    blocks.Pairwise (· < ·) ∧
    (∀ block, block ∈ blocks ↔ ∃ pair ∈ pairsOf loads, blockOf size pair.1 = block) ∧
    last.device.programmed = programmer.device.programmed ++ blocks.map fun block =>
      (block, window block size (imageByte (pairsOf loads)))

/-- The last address before this one that lies at the same place of the buffer and has a page. -/
def Leftover (pairs : List (Nat × UInt8)) (size addr earlier : Nat) : Prop :=
  earlier < addr ∧ earlier % size = addr % size ∧ PageLoaded pairs earlier ∧
    ∀ between, earlier < between → between < addr → between % size = addr % size →
      ¬ PageLoaded pairs between

/--
Each byte that was not loaded finds 0xff.

In a loaded page it is the last byte, whose index that is.
In a missing page the buffer still holds 0xff, from an earlier block or from the start.
-/
def GapsErased (pairs : List (Nat × UInt8)) (size : Nat) (pbuf : Nat → UInt8) : Prop :=
  ∀ addr, (∃ pair ∈ pairs, blockOf size pair.1 = blockOf size addr) →
    lastLoaded pairs addr = none →
    (PageLoaded pairs addr → addr % 256 = 255) ∧
    (¬ PageLoaded pairs addr →
      (∀ earlier, Leftover pairs size addr earlier →
        (lastLoaded pairs earlier = none → earlier % 256 = 255) ∧
        ∀ byte, lastLoaded pairs earlier = some byte → byte = 0xff) ∧
      ((∀ earlier < addr, earlier % size = addr % size → ¬ PageLoaded pairs earlier) →
        pbuf (addr % size) = 0xff))

/-- The index of a byte in its page is 0xff for the last byte only. -/
theorem index_eq_erased (addr : Nat) : UInt8.ofNat (addr % 256) = 0xff ↔ addr % 256 = 255 := by
  -- The index is less than 256, so that it is the byte itself.
  rw [← UInt8.toNat_inj, UInt8.toNat_ofNat']
  change addr % 256 % 256 = 255 ↔ _
  rw [Nat.mod_mod]

/-- A byte of a page reads as erased when it was loaded so, or is the last one and was not. -/
theorem pageByte_eq_erased (pairs : List (Nat × UInt8)) (addr : Nat) :
    pageByte pairs addr = 0xff ↔
      (lastLoaded pairs addr = none → addr % 256 = 255) ∧
        ∀ byte, lastLoaded pairs addr = some byte → byte = 0xff := by
  -- A byte that was not loaded holds its own index in the page.
  rw [pageByte]
  cases lastLoaded pairs addr with
  | none => simpa using index_eq_erased addr
  | some byte => simp

section Buffer

variable {size : Nat}

/-- The place in the buffer is the place of the page and the index in it. -/
theorem place_eq (pages : 256 ∣ size) (addr : Nat) :
    addr % size = addr / 256 * 256 % size + addr % 256 := by
  -- The size is a number of whole pages.
  obtain ⟨count, rfl⟩ := pages
  rw [Nat.mod_mul, Nat.mul_comm (addr / 256) 256, Nat.mul_mod_mul_left, Nat.add_comm]

/-- Addresses at the same place of the buffer have the same index in their pages. -/
theorem index_eq (pages : 256 ∣ size) {first second : Nat}
    (same : first % size = second % size) : first % 256 = second % 256 := by
  -- The size is a multiple of 256, so the place determines the index.
  rw [← Nat.mod_mod_of_dvd first pages, ← Nat.mod_mod_of_dvd second pages, same]

/-- A page that is copied covers the bytes that share its place. -/
theorem patch_page (pages : 256 ∣ size) (entry : Nat × Page) (pbuf : Nat → UInt8) (addr : Nat)
    (aligned : entry.1 % 256 = 0) :
    patch (entry.1 % size) (window 0 256 entry.2) pbuf (addr % size) =
      if entry.1 % size = addr / 256 * 256 % size then entry.2 (addr % 256)
      else pbuf (addr % size) := by
  -- A place is that of its page and the index in the page, and so the two parts are compared.
  have index := Nat.mod_lt addr (show 0 < 256 by omega)
  rw [place_eq pages addr]
  obtain ⟨count, rfl⟩ := pages
  by_cases here : entry.1 % (256 * count) = addr / 256 * 256 % (256 * count)
  · rw [if_pos here, ← here, patch_inside (by simpa using index)]
    have found := getElem?_window 0 256 entry.2 (addr % 256)
    rw [if_pos index, List.getElem?_eq_getElem (by simpa using index), Option.some.injEq] at found
    simpa using found
  · -- Both places are multiples of the page size, so that they are a page apart.
    rw [if_neg here, patch_outside]
    have quotient : entry.1 = 256 * (entry.1 / 256) := by omega
    rw [quotient, Nat.mul_comm (addr / 256) 256, Nat.mul_mod_mul_left,
      Nat.mul_mod_mul_left] at here ⊢
    rw [length_window]
    omega

/-- The last page copied to a place is what the buffer holds there. -/
theorem overlay_last (dvd : 256 ∣ size) (pbuf : Nat → UInt8) {pages : List (Nat × Page)}
    {entry : Nat × Page} {addr : Nat} (aligned : ∀ other ∈ pages, other.1 % 256 = 0)
    (sorted : pages.Pairwise fun first second => first.1 < second.1) (member : entry ∈ pages)
    (here : entry.1 % size = addr / 256 * 256 % size)
    (last : ∀ other ∈ pages, entry.1 < other.1 → other.1 % size ≠ addr / 256 * 256 % size) :
    overlay size pbuf pages (addr % size) = entry.2 (addr % 256) := by
  -- The last copy either is this page or is at another place.
  induction pages using List.reverseRecOn with
  | nil => simp at member
  | append_singleton pages other ih =>
    simp only [overlay, List.foldl_append, List.foldl_cons, List.foldl_nil]
    rw [patch_page dvd other _ addr (aligned other (by simp))]
    obtain ⟨sorted, _, behind⟩ := List.pairwise_append.mp sorted
    rcases List.mem_append.mp member with old | new
    · have elsewhere := last other (by simp) (behind entry old other (by simp))
      rw [if_neg elsewhere]
      exact ih (fun earlier inside => aligned earlier (by simp [inside])) sorted old
        fun earlier inside => last earlier (by simp [inside])
    · rw [List.mem_singleton] at new
      subst new
      rw [if_pos here]

/-- A place that no page was copied to is what it was. -/
theorem overlay_none (dvd : 256 ∣ size) (pbuf : Nat → UInt8) {pages : List (Nat × Page)}
    {addr : Nat}
    (aligned : ∀ other ∈ pages, other.1 % 256 = 0)
    (none : ∀ other ∈ pages, other.1 % size ≠ addr / 256 * 256 % size) :
    overlay size pbuf pages (addr % size) = pbuf (addr % size) := by
  -- No copy goes to this place, and the induction takes the last one off.
  induction pages using List.reverseRecOn with
  | nil => rfl
  | append_singleton pages other ih =>
    simp only [overlay, List.foldl_append, List.foldl_cons, List.foldl_nil]
    rw [patch_page dvd other _ addr (aligned other (by simp)), if_neg (none other (by simp))]
    exact ih (fun earlier inside => aligned earlier (by simp [inside]))
      fun earlier inside => none earlier (by simp [inside])

/-- An address shares its page with the start of that page. -/
theorem pageAt_base (progmem : Progmem) (addr : Nat) :
    pageAt progmem (addr / 256 * 256) = pageAt progmem addr := by
  -- The index in the page is the only byte of the address that differs.
  have upper : high (addr / 256 * 256) = high addr := by rw [high_eq, high_eq]; omega
  have middle : midh (addr / 256 * 256) = midh addr := by rw [midh_eq, midh_eq]; omega
  have lower : midl (addr / 256 * 256) = midl addr := by rw [midl_eq, midl_eq]; omega
  rw [pageAt, pageAt, upper, middle, lower]

/-- The pages of an image are those that a byte was loaded to. -/
theorem Holds.page {pairs : List (Nat × UInt8)} {progmem : Progmem} (holds : Holds pairs progmem)
    {addr : Nat} (small : addr < 2 ^ 32) (loaded : PageLoaded pairs addr) :
    ∃ page, (addr / 256 * 256, page) ∈ pagesOf progmem ∧
      page (addr % 256) = pageByte pairs addr := by
  -- The page is there, and its start is an address of the table.
  obtain ⟨page, found⟩ := Option.isSome_iff_exists.mp ((holds.present addr small).mpr loaded)
  refine ⟨page, mem_pagesOf.mpr ⟨by omega, by omega, ?_⟩, holds.content addr page small found⟩
  rw [pageAt_base, found]

/-- A page of the image was loaded, at every address in it. -/
theorem Holds.loaded {pairs : List (Nat × UInt8)} {progmem : Progmem} (holds : Holds pairs progmem)
    {entry : Nat × Page} (member : entry ∈ pagesOf progmem) {addr : Nat}
    (inside : addr / 256 * 256 = entry.1) : PageLoaded pairs addr := by
  -- The page is there since one of its bytes was loaded.
  obtain ⟨aligned, small, found⟩ := mem_pagesOf.mp member
  refine (holds.present addr (by omega)).mp ?_
  rw [← pageAt_base, inside, found]
  rfl

variable {pairs : List (Nat × UInt8)} {progmem : Progmem} {pbuf : Nat → UInt8} {addr : Nat}

/-- The pages that are in the buffer for a block are pages of the image. -/
theorem mem_upTo {block : Nat} {entry : Nat × Page} :
    entry ∈ upTo size block (pagesOf progmem) ↔
      entry ∈ pagesOf progmem ∧ entry.1 < block + size := by
  simp [upTo]

/-- A copy to the place of an address comes from an address at the same place. -/
theorem same_place (dvd : 256 ∣ size) {entry : Nat × Page} (aligned : entry.1 % 256 = 0)
    (place : entry.1 % size = addr / 256 * 256 % size) :
    (entry.1 + addr % 256) % size = addr % size ∧
      (entry.1 + addr % 256) / 256 * 256 = entry.1 := by
  -- The entry starts a page, so adding an index stays in it.
  have base : (entry.1 + addr % 256) / 256 * 256 = entry.1 := by omega
  have index : (entry.1 + addr % 256) % 256 = addr % 256 := by omega
  refine ⟨?_, base⟩
  rw [place_eq dvd (entry.1 + addr % 256), base, index, place, ← place_eq dvd]

/-- In one block no two addresses lie at the same place. -/
theorem eq_of_same_place (positive : 0 < size) {other : Nat} (lower : blockOf size addr ≤ other)
    (upper : other < blockOf size addr + size) (place : other % size = addr % size) :
    other = addr := by
  -- Both the block and the place in it are the same.
  have block := blockOf_eq positive lower upper
  rw [← blockOf_add_mod size other, ← blockOf_add_mod size addr, block, place]

/-- A block ends where a page ends. -/
theorem blockOf_end (dvd : 256 ∣ size) (addr : Nat) : (blockOf size addr + size) % 256 = 0 := by
  -- A block starts and ends with whole pages.
  obtain ⟨count, rfl⟩ := dvd
  rw [blockOf, Nat.mul_comm 256 count, ← Nat.mul_assoc, ← Nat.add_mul]
  exact Nat.mul_mod_left _ _

/-- The buffer holds a page of the image at a place when no later one was copied there. -/
theorem Holds.overlay_eq (holds : Holds pairs progmem) (dvd : 256 ∣ size)
    (positive : 0 < size) {from_ : Nat} (small : from_ < 2 ^ 32) (loaded : PageLoaded pairs from_)
    (same : from_ % size = addr % size) (le : from_ ≤ addr)
    (none : ∀ between, from_ < between → between < blockOf size addr + size →
      between % size = addr % size → ¬ PageLoaded pairs between) :
    overlay size pbuf (upTo size (blockOf size addr) (pagesOf progmem)) (addr % size) =
      pageByte pairs from_ := by
  -- The page is copied, since it lies in front of the end of the block.
  obtain ⟨page, member, content⟩ := holds.page small loaded
  have inside := (blockOf_bounds positive addr).2
  have index := index_eq dvd same
  have copied : (from_ / 256 * 256, page) ∈
      upTo size (blockOf size addr) (pagesOf progmem) :=
    mem_upTo.mpr ⟨member, by change from_ / 256 * 256 < _; omega⟩
  rw [← same, ← content]
  refine overlay_last dvd pbuf ?_ ?_ copied rfl ?_
  · exact fun other old => (mem_pagesOf.mp (mem_upTo.mp old).1).1
  · exact (pagesOf_sorted progmem).filter _
  · -- A later copy to the same place would be of a page that lies between.
    intro other old later place
    obtain ⟨old, below⟩ := mem_upTo.mp old
    have aligned := (mem_pagesOf.mp old).1
    obtain ⟨placed, base⟩ := same_place dvd aligned place
    have whole := blockOf_end dvd addr
    refine none (other.1 + from_ % 256) ?_ ?_ (placed.trans same) (holds.loaded old base)
    · change from_ / 256 * 256 < other.1 at later
      omega
    · omega

/-- A byte of a loaded page is programmed as its page has it. -/
theorem Holds.overlay_loaded (holds : Holds pairs progmem) (dvd : 256 ∣ size)
    (positive : 0 < size) (small : addr < 2 ^ 32) (loaded : PageLoaded pairs addr) :
    overlay size pbuf (upTo size (blockOf size addr) (pagesOf progmem)) (addr % size) =
      pageByte pairs addr := by
  -- No later page of the same block has the same place in the buffer.
  refine holds.overlay_eq dvd positive small loaded rfl (Nat.le_refl _) ?_
  intro between later below place _
  have lower := (blockOf_bounds positive addr).1
  have here := eq_of_same_place positive (by omega) below place
  omega

/-- A byte of a missing page is programmed as the last page before it left it. -/
theorem Holds.overlay_leftover (holds : Holds pairs progmem) (dvd : 256 ∣ size)
    (positive : 0 < size) (small : addr < 2 ^ 32) (missing : ¬ PageLoaded pairs addr)
    {earlier : Nat} (leftover : Leftover pairs size addr earlier) :
    overlay size pbuf (upTo size (blockOf size addr) (pagesOf progmem)) (addr % size) =
      pageByte pairs earlier := by
  -- Behind the last page no other one is copied, neither before the address nor behind it.
  obtain ⟨before, same, loaded, none⟩ := leftover
  refine holds.overlay_eq dvd positive (by omega) loaded same (by omega) ?_
  intro between later below place
  rcases Nat.lt_trichotomy between addr with less | here | more
  · exact none between later less place
  · exact here ▸ missing
  · have lower := (blockOf_bounds positive addr).1
    have here := eq_of_same_place positive (by omega) below place
    omega

/-- A byte of a missing page that no page was copied over is programmed as the buffer began. -/
theorem Holds.overlay_initial (holds : Holds pairs progmem) (dvd : 256 ∣ size)
    (positive : 0 < size) (missing : ¬ PageLoaded pairs addr)
    (never : ∀ earlier < addr, earlier % size = addr % size → ¬ PageLoaded pairs earlier) :
    overlay size pbuf (upTo size (blockOf size addr) (pagesOf progmem)) (addr % size) =
      pbuf (addr % size) := by
  -- A copy to this place would be of a page that is loaded, before the address or behind it.
  refine overlay_none dvd pbuf ?_ ?_
  · exact fun other old => (mem_pagesOf.mp (mem_upTo.mp old).1).1
  · intro other old place
    obtain ⟨old, below⟩ := mem_upTo.mp old
    have aligned := (mem_pagesOf.mp old).1
    obtain ⟨placed, base⟩ := same_place dvd aligned place
    have loaded := holds.loaded old base
    rcases Nat.lt_trichotomy (other.1 + addr % 256) addr with less | here | more
    · exact never _ less placed loaded
    · exact missing (here ▸ loaded)
    · have lower := (blockOf_bounds positive addr).1
      have whole := blockOf_end dvd addr
      have here := eq_of_same_place positive (by omega) (by omega) placed
      omega

/-- An address with an earlier page at its place has a last such one. -/
theorem exists_leftover {earlier : Nat} (before : earlier < addr)
    (same : earlier % size = addr % size) (loaded : PageLoaded pairs earlier) :
    ∃ last, Leftover pairs size addr last := by
  -- The last address is the greatest one below that has a page and the place.
  let placed := fun other => other % size = addr % size ∧ PageLoaded pairs other
  have found := Nat.findGreatest_spec (P := placed) (show earlier ≤ addr - 1 by omega)
    ⟨same, loaded⟩
  have bound := Nat.findGreatest_le (P := placed) (addr - 1)
  refine ⟨Nat.findGreatest placed (addr - 1), by omega, found.1, found.2, ?_⟩
  intro between later less place page
  exact Nat.findGreatest_is_greatest later (by omega) ⟨place, page⟩

/-- There is only one last address with a page at the same place. -/
theorem Leftover.unique {first second : Nat} (one : Leftover pairs size addr first)
    (other : Leftover pairs size addr second) : first = second := by
  obtain ⟨before, place, page, between⟩ := one
  obtain ⟨before', place', page', between'⟩ := other
  -- The later one of two would lie between the earlier one and the address.
  rcases Nat.lt_trichotomy first second with less | same | more
  · exact absurd page' (between second less before' place')
  · exact same
  · exact absurd page (between' first more before place)

/-- A byte that was not loaded is programmed as 0xff exactly when it finds 0xff. -/
theorem Holds.overlay_eq_erased (holds : Holds pairs progmem) (dvd : 256 ∣ size)
    (positive : 0 < size) (small : addr < 2 ^ 32) (unloaded : lastLoaded pairs addr = none) :
    overlay size pbuf (upTo size (blockOf size addr) (pagesOf progmem)) (addr % size) = 0xff ↔
      (PageLoaded pairs addr → addr % 256 = 255) ∧
      (¬ PageLoaded pairs addr →
        (∀ earlier, Leftover pairs size addr earlier →
          (lastLoaded pairs earlier = none → earlier % 256 = 255) ∧
          ∀ byte, lastLoaded pairs earlier = some byte → byte = 0xff) ∧
        ((∀ earlier < addr, earlier % size = addr % size → ¬ PageLoaded pairs earlier) →
          pbuf (addr % size) = 0xff)) := by
  -- The place holds its own page, or else what an earlier block or the start left there.
  by_cases loaded : PageLoaded pairs addr
  · rw [holds.overlay_loaded dvd positive small loaded, pageByte, unloaded]
    -- A loaded page has the index of the byte, which is 0xff for the last one only.
    simpa [loaded] using index_eq_erased addr
  · by_cases before : ∃ earlier < addr, earlier % size = addr % size ∧ PageLoaded pairs earlier
    · -- The place holds what the last page before the address left there.
      obtain ⟨other, less, same, page⟩ := before
      obtain ⟨last, leftover⟩ := exists_leftover less same page
      rw [holds.overlay_leftover dvd positive small loaded leftover, pageByte_eq_erased]
      constructor
      · intro found
        refine ⟨fun present => absurd present loaded, fun _ => ⟨?_, ?_⟩⟩
        · intro earlier leftover'
          exact leftover'.unique leftover ▸ found
        · exact fun never => absurd page (never other less same)
      · exact fun both => (both.2 loaded).1 last leftover
    · -- No page was copied there, so the buffer is as it began.
      have never : ∀ earlier < addr, earlier % size = addr % size →
          ¬ PageLoaded pairs earlier :=
        fun earlier less same page => before ⟨earlier, less, same, page⟩
      rw [holds.overlay_initial dvd positive loaded never]
      constructor
      · intro found
        refine ⟨fun present => absurd present loaded, fun _ => ⟨?_, fun _ => found⟩⟩
        intro earlier leftover
        exact absurd leftover.2.2.1 (never earlier leftover.1 leftover.2.1)
      · exact fun both => (both.2 loaded).2 never

/-- A byte that was loaded is programmed as it was last loaded. -/
theorem Holds.overlay_eq_byte (holds : Holds pairs progmem) (dvd : 256 ∣ size)
    (positive : 0 < size) (small : addr < 2 ^ 32) {byte : UInt8}
    (found : lastLoaded pairs addr = some byte) :
    overlay size pbuf (upTo size (blockOf size addr) (pagesOf progmem)) (addr % size) = byte := by
  -- The address itself is one of those that load its page.
  have loaded : PageLoaded pairs addr := by
    by_contra missing
    have never : lastLoaded pairs addr = none :=
      lastLoaded_eq_none.mpr fun pair member same => missing ⟨pair, member, by rw [same]⟩
    rw [never] at found
    cases found
  rw [holds.overlay_loaded dvd positive small loaded, pageByte, found, Option.getD_some]

end Buffer

/-- The start of a page lies in the block of the page. -/
theorem blockOf_page {size : Nat} (dvd : 256 ∣ size) {first second : Nat}
    (same : first / 256 = second / 256) : blockOf size first = blockOf size second := by
  -- The block is told by a quotient of the page's number.
  obtain ⟨count, rfl⟩ := dvd
  rw [blockOf, blockOf, ← Nat.div_div_eq_div_mul, ← Nat.div_div_eq_div_mul, same]

/-- A block that starts below 4 GiB ends there at the latest. -/
theorem lt_of_blockOf {size addr other : Nat} (dvd : size ∣ 2 ^ 32) (positive : 0 < size)
    (small : other < 2 ^ 32) (same : blockOf size addr = blockOf size other) : addr < 2 ^ 32 := by
  have lower := (blockOf_bounds positive other).1
  have upper := (blockOf_bounds positive addr).2
  -- Blocks do not straddle the end of the address space, which is a multiple of their size.
  have ends : blockOf size other + size ≤ 2 ^ 32 := by
    have whole : blockOf size (2 ^ 32) = 2 ^ 32 := Nat.div_mul_cancel dvd
    have apart : blockOf size other < blockOf size (2 ^ 32) := by omega
    have := blockOf_add_le apart
    omega
  omega

/-- The blocks with a page are those with a loaded byte. -/
theorem Holds.mem_blocks {size : Nat} {pairs : List (Nat × UInt8)} {progmem : Progmem}
    (holds : Holds pairs progmem) (dvd : 256 ∣ size) (small : ∀ pair ∈ pairs, pair.1 < 2 ^ 32)
    (block : Nat) :
    (∃ entry ∈ pagesOf progmem, blockOf size entry.1 = block) ↔
      ∃ pair ∈ pairs, blockOf size pair.1 = block := by
  constructor
  · rintro ⟨entry, member, same⟩
    have aligned := (mem_pagesOf.mp member).1
    have base : entry.1 / 256 * 256 = entry.1 := by omega
    -- A page is there for a byte that was loaded to it.
    obtain ⟨pair, loaded, here⟩ := holds.loaded member base
    exact ⟨pair, loaded, (blockOf_page dvd here).trans same⟩
  · rintro ⟨pair, loaded, same⟩
    -- A loaded byte has its page, which lies in the same block.
    obtain ⟨page, member, _⟩ := holds.page (small pair loaded) ⟨pair, loaded, rfl⟩
    exact ⟨_, member, (blockOf_page dvd (by omega)).trans same⟩

/-- Two intervals of one length are equal when they agree at each offset. -/
theorem window_eq_window {first second count : Nat} {earlier later : Nat → UInt8} :
    window first count earlier = window second count later ↔
      ∀ i < count, earlier (first + i) = later (second + i) := by
  -- Both are compared cell by cell.
  constructor
  · intro same i inside
    have cells := congrArg (·[i]?) same
    simpa only [getElem?_window, inside, if_true, Option.some.injEq] using cells
  · intro same
    refine List.ext_getElem? fun i => ?_
    rw [getElem?_window, getElem?_window]
    split
    · rename_i inside
      rw [same i inside]
    · rfl

section Exact

variable {k : Nat} {readback : Bool} {loads : List Load} {programmer : Programmer}

/-- The run of a ready programmer on an image, for the block sizes that the chip can report. -/
theorem programAllAreas_ready (atLeastPage : 8 ≤ k) (int : k < 31)
    (ready : programmer.device.Ready)
    (blank : readback = true → ∀ x, programmer.device.memory x = 0xff) :
    ∃ last blocks,
      programAllAreas (2 ^ k) readback (loadAll loads) programmer = some last ∧
        Logged (2 ^ k) programmer (pagesOf (loadAll loads)) (2 ^ 32) blocks last.device := by
  -- For these sizes the mask takes an address to the start of its block.
  refine programAllAreas_logged (fun addr small => ?_) (Nat.two_pow_pos k) ready blank
  exact and_addrMask (by omega) (by omega)

/-- Where every byte finds what it should, the blocks are the image. -/
theorem programsImage_of_gapsErased (atLeastPage : 8 ≤ k) (int : k < 31)
    (ready : programmer.device.Ready)
    (blank : readback = true → ∀ x, programmer.device.memory x = 0xff)
    (small : ∀ pair ∈ pairsOf loads, pair.1 < 2 ^ 32)
    (gaps : GapsErased (pairsOf loads) (2 ^ k) programmer.pbuf) :
    ProgramsImage (2 ^ k) readback loads programmer := by
  -- The run programs some blocks, and each of them is compared with the image byte by byte.
  have dvd : 256 ∣ 2 ^ k := Nat.pow_dvd_pow 2 atLeastPage
  have positive := Nat.two_pow_pos k
  have holds := holds_loadAll small
  obtain ⟨last, blocks, ran, logged⟩ :=
    @programAllAreas_ready k readback loads programmer atLeastPage int ready blank
  -- The blocks that were programmed are those with a page, and so those with a loaded byte.
  have members (block : Nat) :
      block ∈ blocks ↔ ∃ pair ∈ pairsOf loads, blockOf (2 ^ k) pair.1 = block := by
    rw [logged.mem, ← holds.mem_blocks dvd small]
    constructor
    · exact And.right
    · rintro ⟨entry, member, same⟩
      have below := (blockOf_bounds positive entry.1).1
      have inside := (mem_pagesOf.mp member).2.1
      exact ⟨by omega, entry, member, same⟩
  refine ⟨last, blocks, ran, logged.sorted, members, ?_⟩
  rw [logged.log]
  congr 1
  refine List.map_congr_left fun block member => ?_
  obtain ⟨pair, loaded, same⟩ := (members block).mp member
  rw [Prod.mk.injEq, window_eq_window]
  refine ⟨rfl, fun i inside => ?_⟩
  -- Offset by offset: a loaded byte is programmed as loaded, and another one finds 0xff.
  have here : blockOf (2 ^ k) (block + i) = block := by
    rw [← same]
    exact blockOf_eq positive (by omega) (by omega)
  have word : block + i < 2 ^ 32 :=
    lt_of_blockOf (Nat.pow_dvd_pow 2 (by omega)) positive (small pair loaded) (here.trans same.symm)
  have offset : (block + i) % 2 ^ k = i := by
    have parts := blockOf_add_mod (2 ^ k) (block + i)
    omega
  rw [Nat.zero_add, imageByte]
  cases found : lastLoaded (pairsOf loads) (block + i) with
  | none =>
    have erased := (@Holds.overlay_eq_erased _ _ _ programmer.pbuf _ holds dvd positive word
      found).mpr
      (gaps _ ⟨pair, loaded, same.trans here.symm⟩ found)
    rwa [here, offset] at erased
  | some byte =>
    have exact := @Holds.overlay_eq_byte _ _ _ programmer.pbuf _ holds dvd positive word _ found
    rwa [here, offset] at exact

/-- Where the blocks are the image, every byte finds what it should. -/
theorem gapsErased_of_programsImage (atLeastPage : 8 ≤ k) (int : k < 31)
    (ready : programmer.device.Ready)
    (blank : readback = true → ∀ x, programmer.device.memory x = 0xff)
    (programs : ProgramsImage (2 ^ k) readback loads programmer) :
    (∀ pair ∈ pairsOf loads, pair.1 < 2 ^ 32) ∧
      GapsErased (pairsOf loads) (2 ^ k) programmer.pbuf := by
  -- A byte that was not loaded is in a block of the run, and there it is 0xff in the image.
  have dvd : 256 ∣ 2 ^ k := Nat.pow_dvd_pow 2 atLeastPage
  have positive := Nat.two_pow_pos k
  obtain ⟨last, blocks, ran, logged⟩ :=
    @programAllAreas_ready k readback loads programmer atLeastPage int ready blank
  obtain ⟨last', blocks', ran', _, members, image⟩ := programs
  -- The run has one result, so the blocks that it logged are the blocks of the image.
  obtain rfl : last = last' := Option.some.inj (ran.symm.trans ran')
  have entries := List.append_cancel_left (logged.log.symm.trans image)
  obtain rfl : blocks = blocks' := by
    have firsts := congrArg (List.map Prod.fst) entries
    simpa [List.map_map, Function.comp_def] using firsts
  have small : ∀ pair ∈ pairsOf loads, pair.1 < 2 ^ 32 := by
    intro pair loaded
    have member := (members _).mpr ⟨pair, loaded, rfl⟩
    obtain ⟨_, entry, page, same⟩ := (logged.mem _).mp member
    exact lt_of_blockOf (Nat.pow_dvd_pow 2 (by omega)) positive (mem_pagesOf.mp page).2.1 same.symm
  have holds := holds_loadAll small
  refine ⟨small, fun addr ⟨pair, loaded, same⟩ unloaded => ?_⟩
  have word : addr < 2 ^ 32 :=
    lt_of_blockOf (Nat.pow_dvd_pow 2 (by omega)) positive (small pair loaded) same.symm
  refine (holds.overlay_eq_erased dvd positive word unloaded).mp ?_
  have member := (members _).mpr ⟨pair, loaded, same⟩
  have cells := window_eq_window.mp (Prod.mk.inj ((List.map_inj_left.mp entries) _ member)).2
    (addr % 2 ^ k) (Nat.mod_lt _ positive)
  rw [Nat.zero_add, blockOf_add_mod, imageByte, unloaded, Option.getD_none] at cells
  exact cells

end Exact

/-- The image is programmed exactly when it fits in 4 GiB and every gap finds 0xff. -/
theorem programsImage_iff_gapsErased (k : Nat) (atLeastPage : 8 ≤ k) (int : k < 31)
    (readback : Bool) (loads : List Load) (programmer : Programmer)
    (ready : programmer.device.Ready)
    (blank : readback = true → ∀ x, programmer.device.memory x = 0xff) :
    ProgramsImage (2 ^ k) readback loads programmer ↔
      (∀ pair ∈ pairsOf loads, pair.1 < 2 ^ 32) ∧
        GapsErased (pairsOf loads) (2 ^ k) programmer.pbuf := by
  -- Each direction was shown on its own.
  constructor
  · exact gapsErased_of_programsImage atLeastPage int ready blank
  · rintro ⟨small, gaps⟩
    exact programsImage_of_gapsErased atLeastPage int ready blank small gaps

/-- A blank chip that waits for a block, with a buffer that holds 0xff. -/
def blankProgrammer : Programmer where
  pbuf := fun _ => 0xff
  pbufAddr := 0
  pbufDirty := false
  device :=
    { memory := fun _ => 0xff
      bootWait := bwaitProgrammingSelection
      fails := fun _ => false
      programmed := [] }

/-- A blank chip is ready. -/
theorem blankProgrammer_ready : blankProgrammer.device.Ready := ⟨fun _ => rfl, .inl rfl⟩

/-- An image whose only page is loaded up to its last byte is programmed as it is. -/
theorem programsImage_page :
    ProgramsImage (2 ^ 9) true [.puts 0xfff00 (List.replicate 255 0xaa)] blankProgrammer := by
  -- The 255 loaded bytes fill all of the page but its last one, whose index is 0xff.
  have pairs : pairsOf [.puts 0xfff00 (List.replicate 255 0xaa)] =
      (List.range 255).map fun i => (0xfff00 + i, 0xaa) := by decide +kernel
  have loaded (addr : Nat) : PageLoaded ((List.range 255).map fun i => (0xfff00 + i, 0xaa)) addr →
      addr / 256 = 0xfff := by
    rintro ⟨pair, member, same⟩
    obtain ⟨i, inside, rfl⟩ := List.mem_map.mp member
    rw [List.mem_range] at inside
    omega
  refine (programsImage_iff_gapsErased 9 (by decide) (by decide) true _ blankProgrammer
    blankProgrammer_ready fun _ _ => rfl).mpr ?_
  rw [pairs]
  constructor
  · intro pair member
    obtain ⟨i, inside, rfl⟩ := List.mem_map.mp member
    rw [List.mem_range] at inside
    change 0xfff00 + i < 2 ^ 32
    omega
  · rintro addr ⟨pair, member, same⟩ unloaded
    obtain ⟨i, inside, rfl⟩ := List.mem_map.mp member
    rw [List.mem_range] at inside
    simp only [blockOf] at same
    refine ⟨fun page => ?_, fun missing => ⟨fun earlier leftover => ?_, fun _ => rfl⟩⟩
    · -- All other bytes of this page are loaded.
      have here := loaded addr page
      by_contra other
      refine lastLoaded_eq_none.mp unloaded (0xfff00 + addr % 256, 0xaa) ?_ (by omega)
      exact List.mem_map.mpr ⟨addr % 256, List.mem_range.mpr (by omega), rfl⟩
    · -- The missing page of the block is the one before, and there is no page before that.
      have earlierPage := loaded earlier leftover.2.2.1
      have before := leftover.1
      refine absurd ⟨(0xfff00, 0xaa), ?_, ?_⟩ missing
      · exact List.mem_map.mpr ⟨0, by simp, rfl⟩
      · change 0xfff00 / 256 = addr / 256
        omega

/-- One loaded byte is programmed with the indices of a page around it. -/
theorem not_programsImage_single :
    ¬ ProgramsImage (2 ^ 8) false [.putc 0 0x12] blankProgrammer := by
  -- The byte behind the loaded one holds its index, which is not 0xff.
  intro programs
  have gaps := (gapsErased_of_programsImage (by decide) (by decide) blankProgrammer_ready
    (fun reads => by cases reads) programs).2
  have index := (gaps 1 ⟨(0, 0x12), by simp [pairsOf, Load.pairs], by decide⟩ (by decide)).1
    ⟨(0, 0x12), by simp [pairsOf, Load.pairs], by decide⟩
  revert index
  decide

end OpenwrtMisc.RenesasFlash
