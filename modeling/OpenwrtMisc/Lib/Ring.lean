import Mathlib.Algebra.Order.Ring.Nat
import Mathlib.Logic.Function.Basic

/-! Circular buffers addressed by counters that only ever grow. -/

namespace OpenwrtMisc

universe u

variable {α : Type u}

/-- What a circular buffer holds from a counter on, oldest first. -/
def ringContents (size : Nat) (buf : Nat → α) (first count : Nat) : List α :=
  (List.range' first count).map fun counter => buf (counter % size)

/-- An empty stretch of a ring holds nothing. -/
@[simp] theorem ringContents_zero (size : Nat) (buf : Nat → α) (first : Nat) :
    ringContents size buf first 0 = [] := rfl

/-- A stretch of a ring holds as many cells as it is long. -/
@[simp] theorem length_ringContents (size : Nat) (buf : Nat → α) (first count : Nat) :
    (ringContents size buf first count).length = count := by
  rw [ringContents, List.length_map, List.length_range']

/-- The oldest cell of a stretch comes off its front. -/
theorem ringContents_succ (size : Nat) (buf : Nat → α) (first count : Nat) :
    ringContents size buf first (count + 1) =
      buf (first % size) :: ringContents size buf (first + 1) count := by
  -- The range of counters begins with the first one.
  rw [ringContents, List.range'_succ, List.map_cons]
  rfl

/-- A stretch of a ring is read in two parts. -/
theorem ringContents_append (size : Nat) (buf : Nat → α) (start first second : Nat) :
    ringContents size buf start (first + second) =
      ringContents size buf start first ++ ringContents size buf (start + first) second := by
  -- The counters of the second part go on where those of the first part end.
  rw [ringContents, ← List.range'_append_1, List.map_append]
  rfl

/-- Two buffers with the same cells have the same contents. -/
theorem ringContents_ext {size : Nat} {one other : Nat → α}
    (same : ∀ counter, one (counter % size) = other (counter % size)) (first count : Nat) :
    ringContents size one first count = ringContents size other first count :=
  List.map_congr_left fun counter _ => same counter

/-- Only the cell of the first counter matters, not how often it has gone round. -/
theorem ringContents_congr {size first second : Nat} (same : first % size = second % size)
    (buf : Nat → α) (count : Nat) :
    ringContents size buf first count = ringContents size buf second count := by
  -- The two counters stay in step, one cell at a time.
  induction count generalizing first second with
  | zero => rfl
  | succ count ih =>
    have next : (first + 1) % size = (second + 1) % size := by
      rw [Nat.add_mod, same, ← Nat.add_mod]
    rw [ringContents_succ, ringContents_succ, same, ih next]

/-- A stretch that does not go round shows the cells at its counters. -/
theorem getElem?_ringContents {size first count : Nat} (inside : first + count ≤ size)
    (buf : Nat → α) {i : Nat} (short : i < count) :
    (ringContents size buf first count)[i]? = some (buf (first + i)) := by
  -- No counter of the stretch has reached the size.
  have cell : (first + i) % size = first + i := Nat.mod_eq_of_lt (by omega)
  rw [ringContents, List.getElem?_map, List.getElem?_range' short, Nat.one_mul, Option.map_some,
    cell]

/-- Two counters less than a revolution apart fall on different cells. -/
theorem ring_cell_ne {size first second : Nat} (ordered : first < second)
    (near : second < first + size) : first % size ≠ second % size := by
  intro same
  -- Equal remainders put a multiple of the size between the counters.
  have multiple : (second - first) % size = 0 :=
    Nat.sub_mod_eq_zero_of_mod_eq same.symm
  rw [Nat.mod_eq_of_lt (by omega)] at multiple
  omega

/-- A cell written behind a stretch that is not full joins it at its end. -/
theorem ringContents_put {size : Nat} (buf : Nat → α) {first count : Nat} (room : count < size)
    (value : α) :
    ringContents size (Function.update buf ((first + count) % size) value) first (count + 1) =
      ringContents size buf first count ++ [value] := by
  -- Every older counter of the stretch falls on another cell than the new one.
  have kept : ∀ counter ∈ List.range' first count,
      Function.update buf ((first + count) % size) value (counter % size) =
        buf (counter % size) := by
    intro counter member
    have range := List.mem_range'_1.mp member
    apply Function.update_of_ne
    exact ring_cell_ne (by omega) (by omega)
  rw [ringContents, List.range'_concat, List.map_append, List.map_congr_left kept]
  simp [ringContents]

end OpenwrtMisc
