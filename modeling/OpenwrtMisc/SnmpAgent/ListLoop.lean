import OpenwrtMisc.SnmpAgent.Parse

/-! The loop over the list of bindings: which blocks it comes to an end on. -/

namespace OpenwrtMisc.SnmpAgent

/-- The states of the loop after so many turns. -/
inductive Turns (block : List UInt8) (limit : Nat) : Nat → ListState → Prop
  | start : Turns block limit 0 ⟨2, 0, []⟩
  | turn {count : Nat} {state next : ListState} (before : Turns block limit count state)
    (open_ : state.length < limit) (step : varbindStep block state = .ok next) :
    Turns block limit (count + 1) next

/--
What is expected of a list: after as many turns as its length none is begun, and it is left.

A turn that reads outside the block, or stores without an entry, is no way to leave the loop.
-/
structure EndsInTime (block : List UInt8) (limit : Nat) : Prop where
  turns : ∀ count state, Turns block limit count state → state.length < limit → count < limit
  returns : ∃ varbindList, createVarbindListRx block = .ok varbindList

/-- Complete elements lead to another tag than that of an element, before the limit is counted. -/
inductive Stalls (limit : Nat) : Nat → List Varbind → List UInt8 → Prop
  | here {counted : Nat} {varbinds : List Varbind} {tag : UInt8} (bytes : List UInt8)
    (open_ : counted < limit) (other : tag ≠ 0x30) : Stalls limit counted varbinds (tag :: bytes)
  | behind {counted : Nat} {varbinds named valued : List Varbind} {length : UInt8}
    {bytes behindName behindValue : List UInt8} (open_ : counted < limit)
    (name : NameField varbinds bytes named behindName)
    (value : ValueField named behindName valued behindValue)
    (tail : Stalls limit (counted + (length.toNat + 2)) valued behindValue) :
    Stalls limit counted varbinds (0x30 :: length :: bytes)

/-- A turn over complete elements goes on to complete elements, with two more bytes counted. -/
theorem Turns.progress {block : List UInt8} {limit count : Nat} {state : ListState}
    {final : List Varbind} (complete : Elements limit 0 [] (block.drop 2) final)
    (turns : Turns block limit count state) :
    Elements limit state.length state.varbinds (block.drop state.pointer) final ∧
      2 * count ≤ state.length := by
  -- The induction is on the turns, each of which takes the first of the elements that are left.
  induction turns with
  | start => exact ⟨complete, Nat.le_refl _⟩
  | @turn _ state next _ open_ step ih =>
    obtain ⟨elements, counted⟩ := ih
    generalize here : block.drop state.pointer = bytes at elements
    cases elements with
    | done _ reached => exact (reached open_).elim
    | element _ name value tail =>
      obtain ⟨pointer, taken, left⟩ := varbindStep_of_element here name value
      -- The turn has one result, so it is the one that the element gives.
      obtain rfl := Except.ok.inj (taken.symm.trans step)
      dsimp only
      rw [left]
      exact ⟨tail, by omega⟩

/-- Where the block stalls, the loop gets to a turn that leaves its state alone. -/
theorem Stalls.stuck {block bytes : List UInt8} {limit counted : Nat} {varbinds : List Varbind}
    (stalls : Stalls limit counted varbinds bytes) : ∀ {count pointer : Nat},
      block.drop pointer = bytes → Turns block limit count ⟨pointer, counted, varbinds⟩ →
      ∃ more state, Turns block limit (count + more) state ∧ state.length < limit ∧
        varbindStep block state = .ok state := by
  -- The induction goes over the complete elements before the other tag.
  induction stalls with
  | here bytes open_ other =>
    intro count pointer here turns
    refine ⟨0, _, turns, open_, ?_⟩
    unfold varbindStep
    refine bind_eq_ok.mpr ⟨_, readByte_eq_ok.mpr ⟨bytes, here⟩, ?_⟩
    rw [if_neg other]
    rfl
  | @behind counted varbinds named valued length bytes behindName behindValue open_ name value _
      ih =>
    intro count pointer here turns
    obtain ⟨next, step, left⟩ :=
      @varbindStep_of_element _ _ _ _ ⟨pointer, counted, varbinds⟩ _ _ _ here name value
    obtain ⟨more, state, reached, last, stuck⟩ := ih left (.turn turns open_ step)
    exact ⟨more + 1, state, by rwa [Nat.add_comm more, ← Nat.add_assoc], last, stuck⟩

/-- A state that is left alone is there after any number of further turns. -/
theorem Turns.again {block : List UInt8} {limit count : Nat} {state : ListState}
    (turns : Turns block limit count state) (open_ : state.length < limit)
    (stuck : varbindStep block state = .ok state) (more : Nat) :
    Turns block limit (count + more) state := by
  -- The induction is on the further turns.
  induction more with
  | zero => exact turns
  | succ more ih => exact .turn ih open_ stuck

/-- Where the block stalls, the loop takes any number of turns and is to begin another one. -/
theorem Stalls.endless {length : UInt8} {bytes : List UInt8}
    (stalls : Stalls length.toNat 0 [] bytes) (count : Nat) :
    ∃ turns state, count ≤ turns ∧ Turns (0x30 :: length :: bytes) length.toNat turns state ∧
      state.length < length.toNat := by
  -- The turn that changes nothing is repeated for ever.
  obtain ⟨more, state, turns, open_, stuck⟩ :=
    @Stalls.stuck (0x30 :: length :: bytes) _ _ _ _ stalls 0 2 rfl .start
  exact ⟨0 + more + count, state, by omega, turns.again open_ stuck count, open_⟩

/--
The loop ends in as many turns as the list is long just when complete elements lead from the start
of the list to where the declared lengths add up to that.
-/
theorem endsInTime_iff (length : UInt8) (bytes : List UInt8) :
    EndsInTime (0x30 :: length :: bytes) length.toNat ↔
      ∃ varbinds, Elements length.toNat 0 [] bytes varbinds := by
  -- A loop that ends has run over elements, and elements make it end.
  constructor
  · intro ends
    obtain ⟨varbindList, ran⟩ := ends.returns
    -- A block that begins with 30 is not rejected, so what is returned is a list.
    obtain ⟨tag, read, rest⟩ := bind_eq_ok.mp ran
    obtain rfl : (0x30 : UInt8) = tag := Except.ok.inj read
    rw [if_pos rfl] at rest
    obtain ⟨size, counted, rest⟩ := bind_eq_ok.mp rest
    obtain rfl : length = size := Except.ok.inj counted
    obtain ⟨last, loop, _⟩ := bind_eq_ok.mp rest
    exact ⟨_, varbindLoop_elements _ _ _ loop⟩
  · intro complete
    obtain ⟨varbinds, elements⟩ := complete
    refine
      { turns := fun count state reached open_ => ?_
        returns := ⟨_, createVarbindListRx_eq_ok.mpr (.elements elements)⟩ }
    have progress := (reached.progress elements).2
    omega

/-- A list of five bytes that begins with an INTEGER instead of an element. -/
theorem integer_not_endsInTime : ¬ ∀ (length : UInt8) (bytes : List UInt8),
    EndsInTime (0x30 :: length :: bytes) length.toNat := by
  -- The list is run, and its loop does not end.
  intro claim
  have endless : createVarbindListRx [0x30, 0x03, 0x02, 0x01, 0x05, 0x00] = .error .endless := rfl
  obtain ⟨varbindList, ran⟩ := (claim 0x03 [0x02, 0x01, 0x05, 0x00]).returns
  rw [endless] at ran
  cases ran

end OpenwrtMisc.SnmpAgent
