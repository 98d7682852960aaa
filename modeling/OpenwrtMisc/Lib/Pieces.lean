import Mathlib.Data.List.Basic
import Mathlib.Data.List.Flatten
import Mathlib.Data.List.TakeDrop

/-! Streams that are handed on in pieces, of which each may be cut. -/

namespace OpenwrtMisc

section Pieces

variable {α β : Type} {pieces : List α} {cut full : α → List β}

/-- A stream whose pieces are cut is the stream exactly when no piece was cut. -/
theorem flatMap_cut_iff (part : ∀ piece ∈ pieces, (cut piece).Sublist (full piece)) :
    pieces.flatMap cut = pieces.flatMap full ↔ ∀ piece ∈ pieces, cut piece = full piece := by
  -- The induction is on the pieces.
  refine ⟨fun same => ?_, List.flatMap_congr⟩
  induction pieces with
  | nil => exact fun piece member => nomatch member
  | cons first rest ih =>
    have others : ∀ piece ∈ rest, (cut piece).Sublist (full piece) :=
      fun piece member => part piece (List.mem_cons_of_mem first member)
    rw [List.flatMap_cons, List.flatMap_cons] at same
    -- What the first piece loses cannot come back with the others, for they only lose as well.
    have fewer := (part first List.mem_cons_self).length_le
    have fewerOthers := (List.Sublist.flatMap_right rest others).length_le
    have total := congrArg List.length same
    rw [List.length_append, List.length_append] at total
    obtain ⟨head, tail⟩ := List.append_inj same (by omega)
    intro piece member
    cases member with
    | head => exact head
    | tail _ later => exact ih others tail piece later

/-- Pieces that are cut twice, and end before their stream does, lose nothing only if nothing is. -/
theorem flatMap_eq_whole_iff {whole : List β}
    (part : ∀ piece ∈ pieces, (cut piece).Sublist (full piece))
    (begins : pieces.flatMap full <+: whole) :
    pieces.flatMap cut = whole ↔
      (∀ piece ∈ pieces, cut piece = full piece) ∧ pieces.flatMap full = whole := by
  -- A list between two equal ones is as long as they are.
  constructor
  · intro same
    have fewer := (List.Sublist.flatMap_right pieces part).length_le
    have all : pieces.flatMap full = whole :=
      begins.eq_of_length_le (same ▸ fewer)
    exact ⟨(flatMap_cut_iff part).mp (same.trans all.symm), all⟩
  · rintro ⟨uncut, all⟩
    exact (List.flatMap_congr uncut).trans all

/-- The head of a list is the list exactly when it is as long. -/
theorem take_toNat_eq_iff {bytes : List β} {size : Int} (within : size ≤ bytes.length)
    (some : bytes ≠ []) : bytes.take size.toNat = bytes ↔ size = bytes.length := by
  -- A negative size takes nothing, and there is something.
  have positive := List.length_pos_iff.mpr some
  rw [List.take_eq_self_iff]
  omega

end Pieces

end OpenwrtMisc
