import Mathlib.Data.Nat.Notation

/-! Two stateful programs side by side: equal results, from related states to related states. -/

namespace OpenwrtMisc

variable {σ τ α β : Type}

/-- From states related before, both programs give the same and leave states related after. -/
def Relates (before : σ → τ → Prop) (first : StateM σ α) (second : StateM τ α)
    (after : σ → τ → Prop) : Prop :=
  ∀ s t, before s t →
    (first.run s).run.1 = (second.run t).run.1 ∧ after (first.run s).run.2 (second.run t).run.2

namespace Relates

variable {before middle after : σ → τ → Prop} {first : StateM σ α} {second : StateM τ α}

/-- Programs that do nothing keep every relation. -/
theorem pure (value : α) : Relates before (Pure.pure value) (Pure.pure value) before := by
  -- The states are those from before.
  intro s t related
  exact ⟨rfl, related⟩

/-- Programs that only move their states. -/
theorem modify {left : σ → σ} {right : τ → τ}
    (moves : ∀ s t, before s t → after (left s) (right t)) :
    Relates before (modify left) (modify right) after := by
  -- Both results are nothing.
  intro s t related
  exact ⟨rfl, moves s t related⟩

/-- The second parts start from what the first parts leave, with the same value. -/
theorem bind {next : α → StateM σ β} {other : α → StateM τ β}
    (start : Relates before first second middle)
    (rest : ∀ value, Relates middle (next value) (other value) after) :
    Relates before (first >>= next) (second >>= other) after := by
  intro s t related
  obtain ⟨same, between⟩ := start s t related
  -- Both go on with the value of the first program, which is that of the second one.
  have ended := rest (first.run s).run.1 _ _ between
  rw [same] at ended
  have left : ((first >>= next).run s).run =
      ((next (first.run s).run.1).run (first.run s).run.2).run := rfl
  have right : ((second >>= other).run t).run =
      ((other (second.run t).run.1).run (second.run t).run.2).run := rfl
  rw [left, right, same]
  exact ended

/-- A step of the first program alone. -/
theorem left {move : StateM σ Unit} {next : Unit → StateM σ β} {other : StateM τ β}
    (moves : ∀ s t, before s t → middle (move.run s).run.2 t)
    (rest : Relates middle (next ()) other after) : Relates before (move >>= next) other after := by
  -- The second program has not moved yet.
  intro s t related
  exact rest _ t (moves s t related)

/-- A step of the second program alone. -/
theorem right {move : StateM τ Unit} {next : StateM σ β} {other : Unit → StateM τ β}
    (moves : ∀ s t, before s t → middle s (move.run t).run.2)
    (rest : Relates middle next (other ()) after) : Relates before next (move >>= other) after := by
  -- The first program has not moved yet.
  intro s t related
  exact rest s _ (moves s t related)

/-- The relation before may be narrowed and the one after widened. -/
theorem weaken {narrow : σ → τ → Prop} {wide : σ → τ → Prop}
    (relates : Relates before first second after) (enters : ∀ s t, narrow s t → before s t)
    (leaves : ∀ s t, after s t → wide s t) : Relates narrow first second wide := by
  -- The results are equal as before.
  intro s t related
  obtain ⟨same, ended⟩ := relates s t (enters s t related)
  exact ⟨same, leaves _ _ ended⟩

end Relates

end OpenwrtMisc
