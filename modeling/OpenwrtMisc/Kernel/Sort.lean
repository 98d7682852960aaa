import Mathlib.Data.List.Sort

/-! The kernel's `sort`, as far as its callers rely on it. -/

namespace OpenwrtMisc

variable {α : Type}

/-- A comparison that puts all elements in one order, with ties. -/
structure Comparator (cmp : α → α → Int) : Prop where
  total : ∀ first second, cmp first second ≤ 0 ∨ cmp second first ≤ 0
  trans : ∀ first second third, cmp first second ≤ 0 → cmp second third ≤ 0 →
    cmp first third ≤ 0

/--
What the drivers rely on of the kernel's `sort`, which is not stable.

Nothing is promised for a comparison that is not an order.
-/
structure KernelSort (α : Type) where
  sort : (α → α → Int) → List α → List α
  /-- The entries change places only. -/
  perm : ∀ cmp entries, (sort cmp entries).Perm entries
  sorted : ∀ cmp entries, Comparator cmp →
    (sort cmp entries).Pairwise fun first second => cmp first second ≤ 0

/-- An insertion sort puts its entries in the order of the comparison. -/
theorem insertionSort_sorted (cmp : α → α → Int) (entries : List α) (order : Comparator cmp) :
    (entries.insertionSort fun first second => cmp first second ≤ 0).Pairwise
      fun first second => cmp first second ≤ 0 := by
  -- The two laws of the comparison are what the sort of the library asks for.
  have total : Std.Total fun first second => cmp first second ≤ 0 := ⟨order.total⟩
  have trans : IsTrans α fun first second => cmp first second ≤ 0 := ⟨order.trans⟩
  exact List.pairwise_insertionSort _ entries

/-- A sort that keeps the order of ties. -/
def KernelSort.ofInsertionSort (α : Type) : KernelSort α where
  sort cmp entries := entries.insertionSort fun first second => cmp first second ≤ 0
  perm _ _ := List.perm_insertionSort _ _
  sorted := insertionSort_sorted

end OpenwrtMisc
