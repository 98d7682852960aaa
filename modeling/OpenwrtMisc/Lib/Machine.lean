import Mathlib.Data.Option.Basic

/-! Labelled machines: runs, invariants of runs, and conditions that are exact for a run. -/

namespace OpenwrtMisc

universe u v w x

/-- A machine whose choices sit in its labels, so that a disabled label has no successor. -/
structure Machine (State : Type u) (Label : Type v) where
  start : State
  step : State → Label → Option State

namespace Machine

variable {State : Type u} {Label : Type v} (machine : Machine State Label)

/-- The state after a sequence of labels, when every one of them is enabled in turn. -/
def exec : State → List Label → Option State
  | state, [] => some state
  | state, label :: labels => (machine.step state label).bind fun next => exec next labels

/-- The states that some sequence of labels leads to. -/
def Reachable (state : State) : Prop :=
  ∃ labels, machine.exec machine.start labels = some state

/-- A property of every transition that a sequence of labels takes before a label is disabled. -/
def Along (property : State → Label → State → Prop) : State → List Label → Prop
  | _, [] => True
  | state, label :: labels =>
    ∀ next, machine.step state label = some next →
      property state label next ∧ Along property next labels

/-- The outputs of the steps that a sequence of labels takes, in their order. -/
def outputs {Output : Type w} (emit : State → Label → List Output) :
    State → List Label → List Output
  | _, [] => []
  | state, label :: labels =>
    emit state label ++ (machine.step state label).elim [] fun next => outputs emit next labels

variable {machine}

/-- What every step preserves, every sequence of steps preserves. -/
theorem exec_invariant {invariant : State → Prop}
    (keeps : ∀ state label next, invariant state → machine.step state label = some next →
      invariant next) :
    ∀ labels state last, invariant state → machine.exec state labels = some last →
      invariant last := by
  -- The induction follows the labels, carrying the invariant of the current state.
  intro labels
  induction labels with
  | nil =>
    intro state last holds ran
    simp only [exec, Option.some.injEq] at ran
    exact ran ▸ holds
  | cons label labels ih =>
    intro state last holds ran
    simp only [exec, Option.bind_eq_some_iff] at ran
    obtain ⟨next, stepped, ran⟩ := ran
    exact ih next last (keeps state label next holds stepped) ran

/-- An invariant that holds at the start holds in every reachable state. -/
theorem Reachable.invariant {invariant : State → Prop} (initial : invariant machine.start)
    (keeps : ∀ state label next, invariant state → machine.step state label = some next →
      invariant next)
    {state : State} (reachable : machine.Reachable state) : invariant state := by
  -- A reachable state is one that some labels lead to from the start.
  obtain ⟨labels, ran⟩ := reachable
  exact exec_invariant keeps labels machine.start state initial ran

/-- A property along a run holds of each transition of that run. -/
theorem Along.transition {property : State → Label → State → Prop} {labels : List Label}
    {label : Label} {later : List Label} {state here next : State}
    (along : machine.Along property state (labels ++ label :: later))
    (ran : machine.exec state labels = some here) (stepped : machine.step here label = some next) :
    property here label next := by
  -- The induction walks the labels up to the transition, which is the first one that is left.
  induction labels generalizing state with
  | nil =>
    simp only [exec, Option.some.injEq] at ran
    subst ran
    exact (along next stepped).1
  | cons head tail ih =>
    simp only [exec, Option.bind_eq_some_iff] at ran
    obtain ⟨mid, moved, ran⟩ := ran
    exact ih (along mid moved).2 ran

/-- A property along a run holds of the transition to its last state. -/
theorem Along.last {property : State → Label → State → Prop} {labels : List Label} {label : Label}
    {state next : State} (along : machine.Along property state (labels ++ [label]))
    (ran : machine.exec state (labels ++ [label]) = some next) :
    ∃ here, property here label next := by
  -- The induction walks the labels, of which the last one is the label of the transition.
  induction labels generalizing state with
  | nil =>
    simp only [List.nil_append, exec, Option.bind_eq_some_iff, Option.some.injEq] at ran
    obtain ⟨mid, stepped, rfl⟩ := ran
    exact ⟨state, (along mid stepped).1⟩
  | cons head tail ih =>
    simp only [List.cons_append, exec, Option.bind_eq_some_iff] at ran
    obtain ⟨mid, moved, ran⟩ := ran
    exact ih (along mid moved).2 ran

/-- A property of every transition with one of the labels holds along these labels. -/
theorem along_of_forall {property : State → Label → State → Prop} {labels : List Label}
    (holds : ∀ label ∈ labels, ∀ state next, property state label next) (state : State) :
    machine.Along property state labels := by
  -- The induction is on the labels.
  induction labels generalizing state with
  | nil => trivial
  | cons head tail ih =>
    intro next _
    refine ⟨holds head List.mem_cons_self state next, ?_⟩
    exact ih (fun label member => holds label (List.mem_cons_of_mem head member)) next

/-- Properties that say the same of every step say the same of every run. -/
theorem along_congr {first second : State → Label → State → Prop}
    (same : ∀ state label next, machine.step state label = some next →
      (first state label next ↔ second state label next)) :
    ∀ labels state, machine.Along first state labels ↔ machine.Along second state labels := by
  -- The induction is on the labels, over the states that they lead to.
  intro labels
  induction labels with
  | nil =>
    intro state
    exact Iff.rfl
  | cons label labels ih =>
    intro state
    refine forall_congr' fun next => forall_congr' fun stepped => ?_
    exact and_congr (same state label next stepped) (ih next)

/-- An invariant kept by steps that satisfy a condition carries a property along a run of them. -/
theorem along_of_condition {invariant : State → Prop} {condition : State → Label → Prop}
    {property : State → Label → State → Prop}
    (keeps : ∀ state label next, invariant state → condition state label →
      machine.step state label = some next → invariant next ∧ property state label next) :
    ∀ labels state, invariant state →
      machine.Along (fun state label _ => condition state label) state labels →
      machine.Along property state labels := by
  intro labels
  induction labels with
  | nil => intros; trivial
  | cons label labels ih =>
    intro state holds met next stepped
    -- The condition gives the property of this step and the invariant of the next state.
    obtain ⟨here, later⟩ := met next stepped
    obtain ⟨kept, good⟩ := keeps state label next holds here stepped
    exact ⟨good, ih next kept later⟩

/--
A condition is exact for a property when the first step that misses it breaks the property.

Up to that step the invariant still describes the state, so it is all the second premise needs.
-/
theorem along_iff_condition {invariant : State → Prop} {condition : State → Label → Prop}
    {property : State → Label → State → Prop}
    (keeps : ∀ state label next, invariant state → condition state label →
      machine.step state label = some next → invariant next ∧ property state label next)
    (breaks : ∀ state label next, invariant state → property state label next →
      machine.step state label = some next → condition state label) :
    ∀ labels state, invariant state →
      (machine.Along property state labels ↔
        machine.Along (fun state label _ => condition state label) state labels) := by
  intro labels state holds
  constructor
  · induction labels generalizing state with
    | nil => intros; trivial
    | cons label labels ih =>
      intro along next stepped
      obtain ⟨good, later⟩ := along next stepped
      -- The property shows that the step met the condition, so the invariant goes on.
      have met := breaks state label next holds good stepped
      exact ⟨met, ih next (keeps state label next holds met stepped).1 later⟩
  · exact along_of_condition keeps labels state holds

/-- A record that every step extends by its outputs, a run extends by all of them. -/
theorem exec_outputs {Output : Type w} {Kind : Type x} {emit : State → Label → List Output}
    {kind : Output → Kind} {record : State → List Kind}
    (adds : ∀ state label next, machine.step state label = some next →
      (record next).Perm (record state ++ (emit state label).map kind)) :
    ∀ labels state last, machine.exec state labels = some last →
      (record last).Perm (record state ++ (machine.outputs emit state labels).map kind) := by
  -- The induction follows the labels, and the record of each state has what was put out before.
  intro labels
  induction labels with
  | nil =>
    intro state last ran
    simp only [exec, Option.some.injEq] at ran
    rw [ran, outputs, List.map_nil, List.append_nil]
  | cons label labels ih =>
    intro state last ran
    simp only [exec, Option.bind_eq_some_iff] at ran
    obtain ⟨next, stepped, ran⟩ := ran
    rw [outputs, stepped, Option.elim_some, List.map_append, ← List.append_assoc]
    exact (ih next last ran).trans ((adds state label next stepped).append_right _)

end Machine

end OpenwrtMisc
