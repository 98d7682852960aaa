import Mathlib.Data.List.Basic

/-! Programs that may fail and leave a trace of events, and what their traces look like. -/

namespace OpenwrtMisc

/-- A state with the events so far. -/
structure Trace (σ E : Type) where
  state : σ
  events : List E

/-- Programs with errors, over a state and its trace. -/
abbrev Traced (ε σ E α : Type) : Type := StateT (Trace σ E) (Except ε) α

section Traced

variable {ε σ E α β : Type}

/-- One more event. -/
def emit (event : E) : Traced ε σ E Unit := fun trace =>
  .ok ((), { trace with events := trace.events ++ [event] })

/-- A step of the state without an event. -/
def quiet (step : σ → α × σ) : Traced ε σ E α := fun trace =>
  .ok ((step trace.state).1, { trace with state := (step trace.state).2 })

/-- A program with the events that it left. -/
def collect (program : Traced ε σ E α) : Traced ε σ E (α × List E) := fun trace =>
  match program { trace with events := [] } with
  | .ok (value, after) =>
    .ok ((value, after.events), { after with events := trace.events ++ after.events })
  | .error fault => .error fault

/-- Whenever a program succeeds, its value and the events that it leaves are as described. -/
def Emits (program : Traced ε σ E α) (post : α → List E → Prop) : Prop :=
  ∀ start value after, program start = .ok (value, after) →
    ∃ events, after.events = start.events ++ events ∧ post value events

namespace Emits

variable {program : Traced ε σ E α} {next : α → Traced ε σ E β} {post : α → List E → Prop}

/-- A value alone leaves no event. -/
theorem pure (value : α) :
    Emits (Pure.pure value : Traced ε σ E α) fun found events => found = value ∧ events = [] := by
  -- The trace is the one before.
  intro start found after ran
  cases ran
  exact ⟨[], (List.append_nil _).symm, rfl, rfl⟩

/-- An error leaves nothing to describe. -/
theorem throw (fault : ε) {wanted : α → List E → Prop} :
    Emits (MonadExcept.throw fault : Traced ε σ E α) wanted := by
  -- A run that ends with an error does not succeed.
  intro start found after ran
  cases ran

/-- Nothing follows an error. -/
theorem fails (fault : ε) {wanted : β → List E → Prop} :
    Emits ((MonadExcept.throw fault : Traced ε σ E α) >>= next) wanted := by
  -- The error is passed on.
  intro start found after ran
  cases ran

/-- An event is left by the program that makes it. -/
theorem emit (event : E) :
    Emits (OpenwrtMisc.emit event : Traced ε σ E Unit) fun _ events => events = [event] := by
  -- The trace is one event longer.
  intro start found after ran
  cases ran
  exact ⟨[event], rfl, rfl⟩

/-- A quiet step leaves no event. -/
theorem quiet (step : σ → α × σ) :
    Emits (OpenwrtMisc.quiet step : Traced ε σ E α) fun _ events => events = [] := by
  -- The state changes, and the trace does not.
  intro start found after ran
  cases ran
  exact ⟨[], (List.append_nil _).symm, rfl⟩

/-- A description may say less. -/
theorem weaken {wanted : α → List E → Prop} (emits : Emits program post)
    (less : ∀ value events, post value events → wanted value events) : Emits program wanted := by
  -- The same events are described by less.
  intro start value after ran
  obtain ⟨events, left, holds⟩ := emits start value after ran
  exact ⟨events, left, less value events holds⟩

/-- The events of the second part come behind those of the first. -/
theorem bind {wanted : β → List E → Prop} (first : Emits program post)
    (rest : ∀ value events, post value events →
      Emits (next value) fun last more => wanted last (events ++ more)) :
    Emits (program >>= next) wanted := by
  -- A run of the whole is a run of the first part and one of the rest.
  intro start value after ran
  cases begun : program start with
  | error fault =>
    have fails : (program >>= next) start = .error fault := by
      change Except.bind (program start) _ = _
      rw [begun]
      rfl
    rw [fails] at ran
    cases ran
  | ok result =>
    obtain ⟨middle, between⟩ := result
    have goes : (program >>= next) start = next middle between := by
      change Except.bind (program start) _ = _
      rw [begun]
      rfl
    rw [goes] at ran
    obtain ⟨events, left, holds⟩ := first start middle between begun
    obtain ⟨more, behind, ends⟩ := rest middle events holds between value after ran
    exact ⟨events ++ more, by rw [behind, left, List.append_assoc], ends⟩

/-- A first part without events leaves the description to the second one. -/
theorem silently {wanted : β → List E → Prop} (first : Emits program fun _ events => events = [])
    (rest : ∀ value, Emits (next value) wanted) : Emits (program >>= next) wanted := by
  -- Nothing stands in front of the events of the second part.
  refine first.bind fun value events none => ?_
  rw [none]
  exact rest value

/-- A branch of two. -/
theorem ite {condition : Prop} [Decidable condition] {other : Traced ε σ E α}
    (one : condition → Emits program post) (two : ¬ condition → Emits other post) :
    Emits (if condition then program else other) post := by
  -- Each branch is described on its own.
  split
  · exact one ‹_›
  · exact two ‹_›

/-- A program with its events has these events. -/
theorem collect (emits : Emits program post) :
    Emits (OpenwrtMisc.collect program) fun found events =>
      found.2 = events ∧ post found.1 events := by
  -- The trace begins empty, so that its events are all there are.
  intro start found after ran
  unfold OpenwrtMisc.collect at ran
  split at ran
  · rename_i value middle begun
    cases ran
    obtain ⟨events, left, holds⟩ := emits _ _ _ begun
    rw [List.nil_append] at left
    exact ⟨middle.events, rfl, rfl, left ▸ holds⟩
  · cases ran

end Emits

end Traced

end OpenwrtMisc
