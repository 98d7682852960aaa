import Mathlib.Order.Lattice

/-! Searches that count up, may stop early, and hold the best choice that they have seen. -/

namespace OpenwrtMisc.Search

universe u v w

section Counting

variable {State : Type u} (stop : Nat → Prop)

/-- A counting loop: so many turns from an index on, fewer when its body leaves it. -/
def scan [DecidablePred stop] (turn : Nat → State → State) : Nat → Nat → State → State
  | 0, _, state => state
  | turns + 1, index, state =>
    if stop index then state else scan turn turns (index + 1) (turn index state)

/-- The turns that a loop from the first index on comes to, the one that leaves it included. -/
def Reached (index : Nat) : Prop := ∀ earlier, earlier < index → ¬ stop earlier

variable {stop}

/-- The turn after one that does not leave the loop is reached. -/
theorem Reached.next {index : Nat} (reached : Reached stop index) (goes : ¬ stop index) :
    Reached stop (index + 1) := by
  -- An earlier turn is one before the last, or the last itself.
  intro earlier below
  rcases Nat.lt_succ_iff_lt_or_eq.mp below with before | same
  · exact reached earlier before
  · exact same ▸ goes

/-- What holds at a reached turn and is kept by each turn holds at the end of the loop. -/
theorem scan_rule [DecidablePred stop] {turn : Nat → State → State}
    {invariant : Nat → State → Prop} {turns index : Nat} {state : State}
    (reached : Reached stop index) (holds : invariant index state)
    (keeps : ∀ here state, here < index + turns → Reached stop (here + 1) →
      invariant here state → invariant (here + 1) (turn here state)) :
    ∃ last, last ≤ index + turns ∧ Reached stop last ∧
      invariant last (scan stop turn turns index state) ∧ (last < index + turns → stop last) := by
  -- The induction is on the turns that are left, from any index that is reached.
  induction turns generalizing index state with
  | zero => exact ⟨index, Nat.le_refl _, reached, holds, fun below => absurd below (by omega)⟩
  | succ turns ih =>
    unfold scan
    by_cases leaves : stop index
    · rw [if_pos leaves]
      exact ⟨index, by omega, reached, holds, fun _ => leaves⟩
    · rw [if_neg leaves]
      have next := reached.next leaves
      have bound : index + 1 + turns = index + (turns + 1) := by omega
      have rest := ih next (keeps index state (by omega) next holds)
        fun here state below => keeps here state (bound ▸ below)
      rwa [bound] at rest

end Counting

section Holding

variable {Choice : Type v} {Cost : Type w} [LinearOrder Cost]

/-- A choice with what it costs. -/
structure Held (Choice : Type v) (Cost : Type w) where
  choice : Choice
  cost : Cost
  deriving DecidableEq, Repr

/-- An offer is taken when it costs less than what is held. -/
def Held.offer (other held : Held Choice Cost) : Held Choice Cost :=
  if other.cost < held.cost then other else held

/-- What is held after the offers below an index, none of which is better. -/
structure Least (initial : Held Choice Cost) (offers : Nat → Held Choice Cost) (index : Nat)
    (held : Held Choice Cost) : Prop where
  /-- A choice other than the first one was offered, and cost less. -/
  offered : held = initial ∨
    ∃ here, here < index ∧ held = offers here ∧ (offers here).cost < initial.cost
  initially : held.cost ≤ initial.cost
  least : ∀ here, here < index → held.cost ≤ (offers here).cost

variable {initial held : Held Choice Cost} {offers : Nat → Held Choice Cost} {index : Nat}

/-- Before any offer the first choice is held. -/
theorem Least.start : Least initial offers 0 initial where
  offered := .inl rfl
  initially := le_refl _
  least _ below := absurd below (Nat.not_lt_zero _)

/-- One more offer. -/
theorem Least.offer (least : Least initial offers index held) :
    Least initial offers (index + 1) ((offers index).offer held) := by
  -- The offer is better than what is held, or it is not.
  unfold Held.offer
  by_cases better : (offers index).cost < held.cost
  · -- The offer beats what is held, and that was the best of the earlier ones.
    rw [if_pos better]
    refine ⟨.inr ⟨index, by omega, rfl, lt_of_lt_of_le better least.initially⟩, ?_, ?_⟩
    · exact le_of_lt (lt_of_lt_of_le better least.initially)
    · intro here below
      rcases Nat.lt_succ_iff_lt_or_eq.mp below with before | same
      · exact le_of_lt (lt_of_lt_of_le better (least.least here before))
      · exact same ▸ le_refl _
  · rw [if_neg better]
    refine ⟨?_, least.initially, ?_⟩
    · rcases least.offered with same | ⟨here, before, taken, cheaper⟩
      · exact .inl same
      · exact .inr ⟨here, by omega, taken, cheaper⟩
    · intro here below
      rcases Nat.lt_succ_iff_lt_or_eq.mp below with before | same
      · exact least.least here before
      · exact same ▸ not_lt.mp better

end Holding

end OpenwrtMisc.Search
