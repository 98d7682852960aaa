import Mathlib.Data.List.Nodup
import Mathlib.Logic.Function.Basic

/-! An account of what is taken from places that are filled anew, so that nothing is taken twice. -/

namespace OpenwrtMisc

universe u

/--
The places, of which each holds one item, and the items that were taken from them.

An item is known by its place and by how often the place had been filled when the item was in it.
-/
structure Ledger (Place : Type u) where
  filled : Place → Nat
  taken : List (Place × Nat)

namespace Ledger

variable {Place : Type u}

/-- The item that a place holds. -/
def item (ledger : Ledger Place) (place : Place) : Place × Nat := (place, ledger.filled place)

/-- A place is filled with a new item. -/
def fill [DecidableEq Place] (ledger : Ledger Place) (place : Place) : Ledger Place :=
  { ledger with filled := Function.update ledger.filled place (ledger.filled place + 1) }

/-- The items of some places are taken, and stay where they are. -/
def take (ledger : Ledger Place) (places : List Place) : Ledger Place :=
  { ledger with taken := ledger.taken ++ places.map ledger.item }

/-- The item of a place was not taken yet. -/
def Untaken (ledger : Ledger Place) (place : Place) : Prop := ledger.item place ∉ ledger.taken

/-- Nothing was taken twice, and nothing that is still to come. -/
structure Sound (ledger : Ledger Place) : Prop where
  nodup : ledger.taken.Nodup
  past : ∀ item ∈ ledger.taken, item.2 ≤ ledger.filled item.1

variable {ledger : Ledger Place}

/-- With nothing taken the account is sound. -/
theorem sound_nil (filled : Place → Nat) : Sound ⟨filled, []⟩ where
  nodup := List.nodup_nil
  past _ member := absurd member List.not_mem_nil

/-- Two places hold two items. -/
theorem item_injective (ledger : Ledger Place) : Function.Injective ledger.item :=
  fun _ _ same => congrArg Prod.fst same

/-- Filling a place does not change what was taken. -/
theorem Sound.fill [DecidableEq Place] (sound : ledger.Sound) (place : Place) :
    (ledger.fill place).Sound := by
  refine ⟨sound.nodup, fun item member => ?_⟩
  have past := sound.past item member
  show item.2 ≤ Function.update ledger.filled place (ledger.filled place + 1) item.1
  -- The count of a place only goes up.
  by_cases same : item.1 = place
  · rw [same] at past ⊢
    rw [Function.update_self]
    omega
  · rw [Function.update_of_ne same]
    exact past

/-- An item that is new in its place was not taken. -/
theorem Sound.untaken_fill [DecidableEq Place] (sound : ledger.Sound) (place : Place) :
    (ledger.fill place).Untaken place := by
  -- What was taken has a number that was given before.
  intro member
  have past := sound.past _ member
  simp only [item, Ledger.fill, Function.update_self] at past
  omega

/-- Filling one place does not change the items of the others. -/
theorem Untaken.fill [DecidableEq Place] {place : Place} (untaken : ledger.Untaken place)
    {other : Place} (different : place ≠ other) : (ledger.fill other).Untaken place := by
  -- The number of the place is the one it had.
  have same : (ledger.fill other).item place = ledger.item place := by
    simp only [item, Ledger.fill, Function.update_of_ne different]
  rw [Untaken, same]
  exact untaken

/-- Items that were not taken yet may be taken, each place once. -/
theorem Sound.take (sound : ledger.Sound) {places : List Place} (nodup : places.Nodup)
    (untaken : ∀ place ∈ places, ledger.Untaken place) : (ledger.take places).Sound where
  nodup := by
    -- A new item is none of the old ones, as its place was not taken.
    refine List.nodup_append.mpr ⟨sound.nodup, nodup.map ledger.item_injective, ?_⟩
    intro item old other new same
    obtain ⟨place, member, rfl⟩ := List.mem_map.mp new
    exact untaken place member (same ▸ old)
  past item member := by
    rcases List.mem_append.mp member with old | new
    · exact sound.past item old
    · obtain ⟨place, -, rfl⟩ := List.mem_map.mp new
      exact Nat.le_refl _

/-- The items of all other places are still there to be taken. -/
theorem Untaken.take {place : Place} (untaken : ledger.Untaken place) {places : List Place}
    (other : place ∉ places) : (ledger.take places).Untaken place := by
  -- Two places do not share an item.
  intro member
  rcases List.mem_append.mp member with old | new
  · exact untaken old
  · obtain ⟨found, inside, same⟩ := List.mem_map.mp new
    exact other (ledger.item_injective same ▸ inside)

/-- An account of fewer takings is sound as well. -/
theorem Sound.sublist (sound : ledger.Sound) {taken : List (Place × Nat)}
    (fewer : taken.Sublist ledger.taken) : (Ledger.mk ledger.filled taken).Sound where
  nodup := sound.nodup.sublist fewer
  past item member := sound.past item (fewer.subset member)

/-- With fewer takings an item is still not taken. -/
theorem Untaken.sublist {place : Place} (untaken : ledger.Untaken place)
    {taken : List (Place × Nat)} (fewer : taken.Sublist ledger.taken) :
    (Ledger.mk ledger.filled taken).Untaken place :=
  fun member => untaken (fewer.subset member)

end Ledger

end OpenwrtMisc
