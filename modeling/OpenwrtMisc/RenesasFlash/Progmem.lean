import Mathlib.Algebra.Order.Ring.Nat
import Mathlib.Logic.Function.Basic
import Mathlib.Data.List.Induction

/-! The memory image of the programmer: pages of 256 bytes, made when a byte is first put there. -/

namespace OpenwrtMisc.RenesasFlash

/-- `HIGH`, `MIDH`, `MIDL` and `LOW`: the four bytes of an address. -/
def high (addr : Nat) : Nat := addr >>> 24 &&& 0xff
def midh (addr : Nat) : Nat := addr >>> 16 &&& 0xff
def midl (addr : Nat) : Nat := addr >>> 8 &&& 0xff
def low (addr : Nat) : Nat := addr >>> 0 &&& 0xff

/-- A page, a table of pages, and a table of these. -/
abbrev Page := Nat → UInt8
abbrev Columns := Nat → Option Page
abbrev Tables := Nat → Option Columns

/-- `progmem`, where a missing table or page is a null pointer. -/
abbrev Progmem := Nat → Option Tables

/-- A new page, which is set to 0xff and then filled with the index of each byte. -/
def newPage : Page :=
  (List.range 256).foldl (fun page i => Function.update page i (UInt8.ofNat i)) fun _ => 0xff

/-- `progmem_putc`. -/
def progmemPutc (progmem : Progmem) (addr : Nat) (v : UInt8) : Progmem :=
  let tables := (progmem (high addr)).getD fun _ => none
  let columns := (tables (midh addr)).getD fun _ => none
  let page := (columns (midl addr)).getD newPage
  let columns := Function.update columns (midl addr) (some (Function.update page (low addr) v))
  let tables := Function.update tables (midh addr) (some columns)
  Function.update progmem (high addr) (some tables)

/-- `progmem_puts`, whose address is an `unsigned long`. -/
def progmemPuts (progmem : Progmem) (addr : Nat) : List UInt8 → Progmem
  | [] => progmem
  | v :: rest => progmemPuts (progmemPutc progmem addr v) ((addr + 1) % 2 ^ 64) rest

/-- A call of a reader of image files. -/
inductive Load where
  | putc (addr : Nat) (v : UInt8)
  | puts (addr : Nat) (bytes : List UInt8)
  deriving DecidableEq, Repr

/-- What a call does to the image. -/
def Load.run (progmem : Progmem) : Load → Progmem
  | .putc addr v => progmemPutc progmem addr v
  | .puts addr bytes => progmemPuts progmem addr bytes

/-- The image that a sequence of calls leaves behind. -/
def loadAll (loads : List Load) : Progmem := loads.foldl Load.run fun _ => none

/-- The pairs of address and byte that `progmem_puts` loads. -/
def putsPairs (addr : Nat) : List UInt8 → List (Nat × UInt8)
  | [] => []
  | v :: rest => (addr, v) :: putsPairs ((addr + 1) % 2 ^ 64) rest

/-- The pairs of address and byte that a call loads. -/
def Load.pairs : Load → List (Nat × UInt8)
  | .putc addr v => [(addr, v)]
  | .puts addr bytes => putsPairs addr bytes

/-- The pairs of a sequence of calls, in their order. -/
def pairsOf (loads : List Load) : List (Nat × UInt8) := loads.flatMap Load.pairs

/-- The byte last loaded at an address. -/
def lastLoaded (pairs : List (Nat × UInt8)) (addr : Nat) : Option UInt8 :=
  pairs.foldl (fun found pair => if pair.1 = addr then some pair.2 else found) none

/-- Whether some byte was loaded to the page of an address. -/
def PageLoaded (pairs : List (Nat × UInt8)) (addr : Nat) : Prop :=
  ∃ pair ∈ pairs, pair.1 / 256 = addr / 256

instance (pairs : List (Nat × UInt8)) (addr : Nat) : Decidable (PageLoaded pairs addr) :=
  inferInstanceAs (Decidable (∃ pair ∈ pairs, pair.1 / 256 = addr / 256))

/-- A masked shift takes one digit of the address to base 256. -/
theorem shift_byte (addr shift : Nat) : addr >>> shift &&& 0xff = addr / 2 ^ shift % 256 := by
  -- The mask is a power of two less one.
  have mask : (0xff : Nat) = 2 ^ 8 - 1 := rfl
  rw [Nat.shiftRight_eq_div_pow, mask, Nat.and_two_pow_sub_one_eq_mod]

/-- The highest of the four bytes of an address. -/
@[simp] theorem high_eq (addr : Nat) : high addr = addr / 2 ^ 24 % 256 := shift_byte addr 24

/-- The byte below. -/
@[simp] theorem midh_eq (addr : Nat) : midh addr = addr / 2 ^ 16 % 256 := shift_byte addr 16

/-- The byte below that. -/
@[simp] theorem midl_eq (addr : Nat) : midl addr = addr / 2 ^ 8 % 256 := shift_byte addr 8

/-- The lowest byte. -/
@[simp] theorem low_eq (addr : Nat) : low addr = addr % 256 := by
  rw [low, shift_byte, Nat.pow_zero, Nat.div_one]

/-- Filling a page index by index leaves the index of each byte that was reached. -/
theorem fill_index (page : Page) (count i : Nat) :
    (List.range count).foldl (fun page i => Function.update page i (UInt8.ofNat i)) page i =
      if i < count then UInt8.ofNat i else page i := by
  -- The last turn of the loop writes one byte, and the turns before it all those below.
  induction count with
  | zero => simp
  | succ count ih =>
    rw [List.range_succ, List.foldl_append, List.foldl_cons, List.foldl_nil]
    by_cases here : i = count
    · subst here
      simp
    · rw [Function.update_of_ne here, ih]
      have same : i < count ↔ i < count + 1 := by omega
      simp only [same]

/-- A new page does not read as erased: each byte holds its own index. -/
theorem newPage_eq {i : Nat} (inside : i < 256) : newPage i = UInt8.ofNat i := by
  rw [newPage, fill_index, if_pos inside]

/-- The page that an address lies in. -/
def pageAt (progmem : Progmem) (addr : Nat) : Option Page :=
  (progmem (high addr)).bind fun tables =>
    (tables (midh addr)).bind fun columns => columns (midl addr)

/-- Addresses share their page when they agree in the three upper bytes of four. -/
def SamePage (first second : Nat) : Prop :=
  high first = high second ∧ midh first = midh second ∧ midl first = midl second

/-- Below 4 GiB these are the addresses with the same quotient by 256. -/
theorem samePage_iff {first second : Nat} (firstSmall : first < 2 ^ 32)
    (secondSmall : second < 2 ^ 32) : SamePage first second ↔ first / 256 = second / 256 := by
  -- The three bytes above the lowest one are the quotient, digit by digit.
  simp only [SamePage, high_eq, midh_eq, midl_eq]
  omega

/-- Putting a byte changes one byte of its page, which is made when it is missing. -/
theorem pageAt_putc_same {progmem : Progmem} {addr other : Nat} (v : UInt8)
    (same : SamePage addr other) :
    pageAt (progmemPutc progmem addr v) other =
      some (Function.update ((pageAt progmem addr).getD newPage) (low addr) v) := by
  obtain ⟨sameHigh, sameMidh, sameMidl⟩ := same
  simp only [pageAt, progmemPutc, ← sameHigh, ← sameMidh, ← sameMidl, Function.update_self,
    Option.bind_some, Option.some.injEq]
  generalize newPage = fresh
  -- A table that is missing has no page either, so both sides start from a new page.
  cases progmem (high addr) with
  | none => rfl
  | some tables =>
    simp only [Option.getD_some, Option.bind_some]
    cases tables (midh addr) <;> rfl

/-- Putting a byte leaves the other pages alone. -/
theorem pageAt_putc_other {progmem : Progmem} {addr other : Nat} (v : UInt8)
    (apart : ¬ SamePage addr other) :
    pageAt (progmemPutc progmem addr v) other = pageAt progmem other := by
  simp only [pageAt, progmemPutc]
  generalize newPage = fresh
  -- At each of the three tables the other address takes the updated entry or an old one.
  by_cases sameHigh : high other = high addr
  · rw [sameHigh, Function.update_self, Option.bind_some]
    by_cases sameMidh : midh other = midh addr
    · have sameMidl : midl other ≠ midl addr :=
        fun same => apart ⟨sameHigh.symm, sameMidh.symm, same.symm⟩
      rw [sameMidh, Function.update_self, Option.bind_some, Function.update_of_ne sameMidl]
      cases progmem (high addr) with
      | none => rfl
      | some tables =>
        simp only [Option.getD_some, Option.bind_some]
        cases tables (midh addr) <;> rfl
    · rw [Function.update_of_ne sameMidh]
      cases progmem (high addr) <;> rfl
  · rw [Function.update_of_ne sameHigh]

/-- A string is put byte by byte. -/
theorem progmemPuts_eq (progmem : Progmem) (addr : Nat) (bytes : List UInt8) :
    progmemPuts progmem addr bytes =
      (putsPairs addr bytes).foldl (fun progmem pair => progmemPutc progmem pair.1 pair.2)
        progmem := by
  -- The induction is on the string, whose address goes up by one.
  induction bytes generalizing progmem addr with
  | nil => rfl
  | cons v rest ih => exact ih _ _

/-- The calls put their pairs one after the other. -/
theorem loadAll_eq (loads : List Load) :
    loadAll loads =
      (pairsOf loads).foldl (fun progmem pair => progmemPutc progmem pair.1 pair.2)
        fun _ => none := by
  -- One call puts the pairs of that call.
  rw [loadAll, pairsOf, List.foldl_flatMap]
  congr 1
  funext progmem load
  cases load with
  | putc addr v => rfl
  | puts addr bytes => exact progmemPuts_eq progmem addr bytes

/-- A pair more is the last one loaded at its address. -/
theorem lastLoaded_append (pairs : List (Nat × UInt8)) (pair : Nat × UInt8) (addr : Nat) :
    lastLoaded (pairs ++ [pair]) addr =
      if pair.1 = addr then some pair.2 else lastLoaded pairs addr := by
  simp [lastLoaded]

/-- A byte is found at an address exactly when one was loaded there. -/
theorem lastLoaded_eq_none {pairs : List (Nat × UInt8)} {addr : Nat} :
    lastLoaded pairs addr = none ↔ ∀ pair ∈ pairs, pair.1 ≠ addr := by
  -- The induction is on the last pair, which is found first.
  induction pairs using List.reverseRecOn with
  | nil => simp [lastLoaded]
  | append_singleton pairs pair ih =>
    rw [lastLoaded_append]
    by_cases here : pair.1 = addr
    · simp only [here, if_true, reduceCtorEq, false_iff, not_forall]
      exact ⟨pair, by simp, by simp [here]⟩
    · -- A pair at another address changes neither side.
      simp only [if_neg here, ih, List.mem_append, List.mem_singleton]
      constructor
      · rintro others other (old | rfl)
        · exact others other old
        · exact here
      · exact fun others other old => others other (.inl old)

/-- The byte that a page of the image holds: the one last loaded, or its index in the page. -/
def pageByte (pairs : List (Nat × UInt8)) (addr : Nat) : UInt8 :=
  (lastLoaded pairs addr).getD (UInt8.ofNat (addr % 256))

/-- The image of loaded pairs below 4 GiB: which pages it has, and what each byte of them is. -/
structure Holds (pairs : List (Nat × UInt8)) (progmem : Progmem) : Prop where
  present : ∀ addr, addr < 2 ^ 32 → ((pageAt progmem addr).isSome ↔ PageLoaded pairs addr)
  content : ∀ addr page, addr < 2 ^ 32 → pageAt progmem addr = some page →
    page (addr % 256) = pageByte pairs addr

/-- Another byte put into the same page leaves what the page holds, or starts with its index. -/
theorem Holds.pageOrNew {pairs : List (Nat × UInt8)} {progmem : Progmem}
    (holds : Holds pairs progmem) {put addr : Nat} (small : put < 2 ^ 32)
    (inside : addr < 2 ^ 32) (here : put / 256 = addr / 256) :
    (pageAt progmem put).getD newPage (addr % 256) = pageByte pairs addr := by
  -- The page exists already, or a new one is filled with the indices of its bytes.
  cases old : pageAt progmem put with
  | none =>
    -- Nothing was loaded into the page, so in particular nothing at this address.
    have missing : ¬ PageLoaded pairs addr := by
      intro ⟨earlier, member, same⟩
      have some := (holds.present put small).mpr ⟨earlier, member, same.trans here.symm⟩
      simp [old] at some
    have never : lastLoaded pairs addr = none := by
      refine lastLoaded_eq_none.mpr fun earlier member same => missing ⟨earlier, member, ?_⟩
      rw [same]
    rw [pageByte, never]
    exact newPage_eq (Nat.mod_lt _ (by omega))
  | some page =>
    have same : pageAt progmem addr = some page := by
      have agree := (samePage_iff small inside).mpr here
      rw [← old, pageAt, pageAt, agree.1, agree.2.1, agree.2.2]
    exact holds.content addr page inside same

/-- Putting one more byte keeps the image in step with the pairs. -/
theorem Holds.putc {pairs : List (Nat × UInt8)} {progmem : Progmem} (holds : Holds pairs progmem)
    {pair : Nat × UInt8} (small : pair.1 < 2 ^ 32) :
    Holds (pairs ++ [pair]) (progmemPutc progmem pair.1 pair.2) where
  present addr inside := by
    -- The page of the byte is there afterwards, and the others are as they were.
    by_cases here : pair.1 / 256 = addr / 256
    · rw [pageAt_putc_same _ ((samePage_iff small inside).mpr here)]
      simp only [Option.isSome_some, true_iff]
      exact ⟨pair, by simp, here⟩
    · -- The other pages are there for the pairs that came before.
      rw [pageAt_putc_other _ (mt (samePage_iff small inside).mp here),
        holds.present addr inside]
      constructor
      · rintro ⟨other, old, same⟩
        exact ⟨other, by simp [old], same⟩
      · rintro ⟨other, old, same⟩
        rcases List.mem_append.mp old with old | last
        · exact ⟨other, old, same⟩
        · rw [List.mem_singleton] at last
          exact absurd (last ▸ same) here
  content addr page inside found := by
    rw [pageByte, lastLoaded_append]
    by_cases here : pair.1 / 256 = addr / 256
    · rw [pageAt_putc_same _ ((samePage_iff small inside).mpr here), Option.some.injEq] at found
      subst found
      by_cases exact : pair.1 = addr
      · simp [exact]
      · have other : addr % 256 ≠ low pair.1 := by rw [low_eq]; omega
        rw [Function.update_of_ne other, if_neg exact]
        exact holds.pageOrNew small inside here
    · have exact : pair.1 ≠ addr := fun same => here (by rw [same])
      rw [pageAt_putc_other _ (mt (samePage_iff small inside).mp here)] at found
      rw [if_neg exact]
      exact holds.content addr page inside found

/-- The image that calls below 4 GiB leave behind. -/
theorem holds_loadAll {loads : List Load} (small : ∀ pair ∈ pairsOf loads, pair.1 < 2 ^ 32) :
    Holds (pairsOf loads) (loadAll loads) := by
  -- Induction on the pairs, in the order of the calls.
  rw [loadAll_eq]
  revert small
  generalize pairsOf loads = pairs
  -- The pairs are put one by one, and each of them keeps what holds of those before it.
  induction pairs using List.reverseRecOn with
  | nil =>
    intro small
    constructor
    · simp [pageAt, PageLoaded]
    · simp [pageAt]
  | append_singleton pairs pair ih =>
    intro small
    rw [List.foldl_append]
    exact (ih fun other member => small other (by simp [member])).putc (small pair (by simp))

end OpenwrtMisc.RenesasFlash
