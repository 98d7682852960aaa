import Mathlib.Data.List.Basic

/-! Memories as functions, with writes of whole lists and reads of whole intervals. -/

namespace OpenwrtMisc

universe u

variable {α : Type u}

/-- The memory after a list was written from an address on. -/
def patch (start : Nat) (data : List α) (memory : Nat → α) : Nat → α := fun address =>
  if start ≤ address then (data[address - start]?).getD (memory address) else memory address

/-- The cells of an interval. -/
def window (start : Nat) : Nat → (Nat → α) → List α
  | 0, _ => []
  | count + 1, memory => memory start :: window (start + 1) count memory

/-- An interval has as many cells as it is long. -/
@[simp] theorem length_window (start count : Nat) (memory : Nat → α) :
    (window start count memory).length = count := by
  -- The induction is on the number of cells.
  induction count generalizing start with
  | zero => rfl
  | succ count ih => simp only [window, List.length_cons, ih]

/-- A cell of an interval is the cell of the memory at that address. -/
theorem getElem?_window (start count : Nat) (memory : Nat → α) (i : Nat) :
    (window start count memory)[i]? = if i < count then some (memory (start + i)) else none := by
  induction count generalizing start i with
  | zero => simp [window]
  | succ count ih =>
    cases i with
    | zero => simp [window]
    | succ i =>
      -- The rest of the interval begins one address later.
      have shifted : start + 1 + i = start + (i + 1) := by omega
      simp only [window, List.getElem?_cons_succ, ih, shifted, Nat.add_lt_add_iff_right]

/-- An interval is read in two parts. -/
theorem window_append (start first second : Nat) (memory : Nat → α) :
    window start (first + second) memory =
      window start first memory ++ window (start + first) second memory := by
  -- The induction is on the length of the first part.
  induction first generalizing start with
  | zero => simp [window]
  | succ first ih =>
    have split : first + 1 + second = first + second + 1 := by omega
    have shifted : start + 1 + first = start + (first + 1) := by omega
    rw [split]
    simp only [window, ih, shifted, List.cons_append]

/-- A part of an interval is an interval. -/
theorem window_slice {start count offset size : Nat} (memory : Nat → α)
    (inside : offset + size ≤ count) :
    ((window start count memory).drop offset).take size = window (start + offset) size memory := by
  -- Both are compared cell by cell.
  refine List.ext_getElem? fun i => ?_
  rw [List.getElem?_take, List.getElem?_drop, getElem?_window, getElem?_window, Nat.add_assoc]
  by_cases here : i < size
  · rw [if_pos here, if_pos here, if_pos (by omega)]
  · rw [if_neg here, if_neg here]

/-- Memories that agree on an interval show the same cells there. -/
theorem window_congr {start count : Nat} {first second : Nat → α}
    (same : ∀ address, start ≤ address → address < start + count →
      first address = second address) :
    window start count first = window start count second := by
  -- Both are compared cell by cell.
  refine List.ext_getElem? fun i => ?_
  rw [getElem?_window, getElem?_window]
  split
  · rw [same _ (by omega) (by omega)]
  · rfl

/-- A written cell holds what was written. -/
theorem patch_inside {start : Nat} {data : List α} {memory : Nat → α} {i : Nat}
    (inside : i < data.length) : patch start data memory (start + i) = data[i] := by
  simp [patch, inside]

/-- A cell outside the written interval is unchanged. -/
theorem patch_outside {start address : Nat} {data : List α} {memory : Nat → α}
    (outside : address < start ∨ start + data.length ≤ address) :
    patch start data memory address = memory address := by
  -- Before the interval, or at an index that the data does not have.
  unfold patch
  split
  · rw [List.getElem?_eq_none (by omega)]
    rfl
  · rfl

/-- What a cell holds after a write depends only on the write and on that cell. -/
theorem patch_congr {start address : Nat} {data : List α} {first second : Nat → α}
    (same : first address = second address) :
    patch start data first address = patch start data second address := by
  -- The cell itself is all that a write falls back on.
  unfold patch
  rw [same]

/-- Writing nothing changes nothing. -/
theorem patch_nil (start : Nat) (memory : Nat → α) : patch start [] memory = memory := by
  -- Every cell is outside of an empty interval.
  funext address
  exact patch_outside (by simp; omega)

/-- Writing one cell and then the cells after it is one write. -/
theorem patch_cons (start : Nat) (head : α) (tail : List α) (memory : Nat → α) :
    patch (start + 1) tail (patch start [head] memory) = patch start (head :: tail) memory := by
  funext address
  -- A cell is the one written first, one of those written after it, or one that is left alone.
  by_cases here : address = start
  · subst here
    rw [patch_outside (by omega)]
    simp [patch]
  · by_cases after : start < address
    · obtain ⟨offset, rfl⟩ : ∃ offset, address = start + 1 + offset :=
        ⟨address - (start + 1), by omega⟩
      have first : patch start [head] memory (start + 1 + offset) =
          memory (start + 1 + offset) := patch_outside (by simp)
      have index : start + 1 + offset - start = offset + 1 := by omega
      have within : start ≤ start + 1 + offset := by omega
      rw [patch, first]
      simp [patch, index, within]
    · rw [patch_outside (by omega), patch_outside (by omega), patch_outside (by omega)]

/-- Writing two lists one behind the other is one write. -/
theorem patch_append (start : Nat) (first second : List α) (memory : Nat → α) :
    patch (start + first.length) second (patch start first memory) =
      patch start (first ++ second) memory := by
  induction first generalizing start memory with
  | nil => rw [patch_nil]; rfl
  | cons head tail ih =>
    -- The first cell is taken off one write and put to the other.
    have shifted : start + (head :: tail).length = start + 1 + tail.length := by
      simp only [List.length_cons]
      omega
    rw [shifted, ← patch_cons start head tail, ih, patch_cons]
    rfl

/-- Writing a list in front of another that is already there is one write. -/
theorem patch_prepend (start : Nat) (first second : List α) (memory : Nat → α) :
    patch start first (patch (start + first.length) second memory) =
      patch start (first ++ second) memory := by
  -- The two writes do not meet, so their order does not matter.
  rw [← patch_append]
  funext address
  by_cases inside : start ≤ address ∧ address < start + first.length
  · obtain ⟨offset, rfl⟩ : ∃ offset, address = start + offset := ⟨address - start, by omega⟩
    have below : offset < first.length := by omega
    rw [patch_inside below, patch_outside (by omega), patch_inside below]
  · have apart : address < start ∨ start + first.length ≤ address := by omega
    rw [patch_outside apart]
    exact patch_congr (patch_outside apart).symm

/-- The cells of a write show what was written. -/
theorem window_patch_same (start : Nat) (data : List α) (memory : Nat → α) :
    window start data.length (patch start data memory) = data := by
  -- Both are compared cell by cell.
  refine List.ext_getElem? fun i => ?_
  rw [getElem?_window]
  split
  · rename_i here
    rw [patch_inside here, List.getElem?_eq_getElem here]
  · rw [List.getElem?_eq_none (by omega)]

/-- Writing back an interval of a memory makes the two memories agree there. -/
theorem patch_window {start count : Nat} {source memory : Nat → α}
    (same : ∀ address, address < start ∨ start + count ≤ address →
      memory address = source address) :
    patch start (window start count source) memory = source := by
  funext address
  -- Inside the interval the written bytes are those of the source.
  by_cases inside : start ≤ address ∧ address < start + count
  · unfold patch
    rw [if_pos inside.1, getElem?_window, if_pos (by omega)]
    simp only [Option.getD_some]
    congr 1
    omega
  · rw [patch_outside (by rw [length_window]; omega)]
    exact same address (by omega)

/-- An interval with a write inside it shows the old cells around the new ones. -/
theorem window_patch (start count offset : Nat) (data : List α) (memory : Nat → α)
    (inside : offset + data.length ≤ count) :
    window start count (patch (start + offset) data memory) =
      (window start count memory).take offset ++ data ++
        (window start count memory).drop (offset + data.length) := by
  -- Only the part in the middle is written.
  have written := window_patch_same (start + offset) data memory
  have before : window start offset (patch (start + offset) data memory) =
      window start offset memory :=
    window_congr fun address _ _ => patch_outside (by omega)
  have after : window (start + offset + data.length) (count - (offset + data.length))
      (patch (start + offset) data memory) =
      window (start + offset + data.length) (count - (offset + data.length)) memory :=
    window_congr fun address _ _ => patch_outside (by omega)
  -- The interval is cut at both ends of the write.
  have cut : count = offset + (data.length + (count - (offset + data.length))) := by omega
  have parts : ∀ other : Nat → α, window start count other =
      window start offset other ++ (window (start + offset) data.length other ++
        window (start + offset + data.length) (count - (offset + data.length)) other) := by
    intro other
    conv_lhs => rw [cut]
    rw [window_append, window_append]
  rw [parts, parts memory, before, written, after]
  rw [List.take_left' (length_window _ _ _), ← List.append_assoc, ← List.append_assoc,
    List.drop_left' (by simp)]

/-- The addresses that a write reaches. -/
def Reaches (start : Nat) (data : List α) (address : Nat) : Prop :=
  start ≤ address ∧ address < start + data.length

/-- Writes leave the cells alone that none of them reaches. -/
theorem foldl_patch_outside {ι : Type u} (start : ι → Nat) (data : ι → List α) {address : Nat} :
    ∀ (writes : List ι) (memory : Nat → α),
      (∀ write ∈ writes, ¬ Reaches (start write) (data write) address) →
      writes.foldl (fun memory write => patch (start write) (data write) memory) memory address =
        memory address := by
  intro writes
  induction writes with
  | nil => intros; rfl
  | cons write rest ih =>
    intro memory outside
    -- Neither the first write nor one of the later ones reaches the cell.
    rw [List.foldl_cons, ih _ fun other member => outside other (.tail _ member)]
    have apart := outside write List.mem_cons_self
    exact patch_outside (by unfold Reaches at apart; omega)

/-- After disjoint writes in any order, each write is found where it was made. -/
theorem foldl_patch_inside {ι : Type u} (start : ι → Nat) (data : ι → List α) {write : ι} :
    ∀ (writes : List ι) (memory : Nat → α), write ∈ writes →
      writes.Pairwise (fun first second => ∀ address,
        ¬ (Reaches (start first) (data first) address ∧
          Reaches (start second) (data second) address)) →
      ∀ i (inside : i < (data write).length),
        writes.foldl (fun memory write => patch (start write) (data write) memory) memory
          (start write + i) = (data write)[i] := by
  -- The induction is on the writes, those behind which leave the cell alone.
  intro writes
  induction writes with
  | nil => intro _ member; cases member
  | cons head rest ih =>
    intro memory member disjoint i inside
    obtain ⟨apart, disjoint⟩ := List.pairwise_cons.mp disjoint
    rw [List.foldl_cons]
    rcases List.mem_cons.mp member with rfl | later
    · -- The writes after this one do not reach its cells.
      rw [foldl_patch_outside start data rest]
      · exact patch_inside inside
      · exact fun other found reached => apart other found _ ⟨⟨by omega, by omega⟩, reached⟩
    · exact ih _ later disjoint i inside

end OpenwrtMisc
