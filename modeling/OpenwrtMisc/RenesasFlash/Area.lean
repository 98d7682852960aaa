import OpenwrtMisc.Lib.Patch

/-! Programming of one block: up to three attempts, each compared with what is read back. -/

namespace OpenwrtMisc.RenesasFlash

/-- `RX_BWAIT_PROGRAMMING_SELECTION` and `RX_BWAIT_PROGRAMMING_DATA`. -/
def bwaitProgrammingSelection : Nat := 0x3f
def bwaitProgrammingData : Nat := 0x4f

/--
What the functions of rxlib do with a chip of any kind, and how it answers.

No result is an error; a read that succeeds leaves `rbuf`.
-/
structure Chip (State : Type) where
  status : State → Option Nat × State
  readMemory : Nat → Nat → State → Option (Nat → UInt8) × State
  beginUserFlash : State → State
  programBlock : Nat → List UInt8 → State → Bool × State
  doneProgramming : State → State

/-- An attempt: the result of `rxlib_program_block`, and what was read back after it. -/
structure Attempt where
  programmed : Bool
  readBack : Option (Nat → UInt8)

/-- What comes of an attempt. -/
inductive Verdict where
  /-- The block was not programmed. -/
  | refused
  /-- The block cannot be read back. -/
  | unread
  /-- The block reads differently, first at an index. -/
  | differs (index : Nat)
  | good
  deriving DecidableEq, Repr

/-- The end of `program_one_area`: whether it returns or exits, and the attempts it made. -/
structure Ended (State : Type) where
  returned : Bool
  state : State
  attempts : List Attempt

/-- The index where the comparison of two buffers stops. -/
def firstDifference (count : Nat) (rbuf pbuf : Nat → UInt8) : Option Nat :=
  (List.range count).find? fun i => rbuf i ≠ pbuf i

/-- What comes of an attempt to program a buffer. -/
def Attempt.verdict (programmingSize : Nat) (readback : Bool) (pbuf : Nat → UInt8)
    (attempt : Attempt) : Verdict :=
  if attempt.programmed = false then .refused
  else if readback = false then .good
  else
    match attempt.readBack with
    | none => .unread
    | some rbuf =>
      match firstDifference programmingSize rbuf pbuf with
      | some index => .differs index
      | none => .good

/-- The end of the attempts, with one more before them. -/
def Ended.prepend {State : Type} (attempt : Attempt) (ended : Ended State) : Ended State :=
  { ended with attempts := attempt :: ended.attempts }

section Area

variable {State : Type} (chip : Chip State) (programmingSize : Nat) (readback : Bool)
  (pbuf : Nat → UInt8) (addr : Nat)

/-- The calls of one attempt. -/
def attemptProgram (state : State) : Attempt × State :=
  let (programmed, state) :=
    chip.programBlock addr (window 0 programmingSize pbuf) (chip.beginUserFlash state)
  let state := chip.doneProgramming state
  if programmed && readback then
    let (rbuf, state) := chip.readMemory addr programmingSize state
    (⟨true, rbuf⟩, state)
  else (⟨programmed, none⟩, state)

/-- The loop of `program_one_area`, for so many turns; `i` counts the attempts. -/
def tryProgram : Nat → Nat → State → Option (Ended State)
  | 0, _, _ => none
  | turns + 1, i, state =>
    if i < 3 then
      let (attempt, state) := attemptProgram chip programmingSize readback pbuf addr state
      match attempt.verdict programmingSize readback pbuf with
      | .refused => (tryProgram turns (i + 1) state).map (Ended.prepend attempt)
      | .unread => some ⟨false, state, [attempt]⟩
      -- The comparison counts with the same variable, and leaves its index there.
      | .differs index => (tryProgram turns (index + 1) state).map (Ended.prepend attempt)
      | .good => some ⟨true, state, [attempt]⟩
    else some ⟨false, state, []⟩

/-- The check of `program_one_area` that a block is still erased. -/
def checkErased (state : State) : Bool × State :=
  if readback then
    match chip.readMemory addr programmingSize state with
    | (none, state) => (false, state)
    | (some rbuf, state) => ((List.range programmingSize).all fun i => rbuf i == 0xff, state)
  else (true, state)

/-- What `program_one_area` does before its loop, and whether it goes on to it. -/
def prepareArea (state : State) : Bool × State :=
  match chip.status state with
  | (none, state) => (false, state)
  | (some bootWait, state) =>
    if bootWait ≠ bwaitProgrammingSelection ∧ bootWait ≠ bwaitProgrammingData then (false, state)
    else checkErased chip programmingSize readback addr state

/-- `program_one_area`, with so many turns for its loop. -/
def programOneArea (turns : Nat) (state : State) : Option (Ended State) :=
  match prepareArea chip programmingSize readback addr state with
  | (false, state) => some ⟨false, state, []⟩
  | (true, state) => tryProgram chip programmingSize readback pbuf addr turns 0 state

/-- What is expected of the end: three attempts at most, and the last one good if it returns. -/
structure Programs (ended : Ended State) : Prop where
  attempts : ended.attempts.length ≤ 3
  good : ended.returned = true → ∃ last, ended.attempts.getLast? = some last ∧
    last.programmed = true ∧
    (readback = true → ∃ rbuf, last.readBack = some rbuf ∧ ∀ i < programmingSize, rbuf i = pbuf i)

/-- The loop ends, after so many attempts at most. -/
def EndsWithin (attempts i : Nat) (state : State) : Prop :=
  ∃ turns ended, tryProgram chip programmingSize readback pbuf addr turns i state = some ended ∧
    ended.attempts.length ≤ attempts

/-- The chip after so many attempts. -/
def afterAttempts (attempts : Nat) (state : State) : State :=
  Nat.repeat (fun state => (attemptProgram chip programmingSize readback pbuf addr state).2)
    attempts
    state

/-- What comes of the attempt after so many others. -/
def verdictAt (attempts : Nat) (state : State) : Verdict :=
  (attemptProgram chip programmingSize readback pbuf addr
    (afterAttempts chip programmingSize readback pbuf addr attempts state)).1.verdict
      programmingSize readback pbuf

end Area

/-- Three verdicts after which the count of the attempts still allows another one. -/
structure StartsOver (one two three : Verdict) : Prop where
  first : one = .refused ∨ one = .differs 0 ∨ one = .differs 1
  second : two = .differs 0 ∨ two = .differs 1 ∨ two = .refused ∧ one ≠ .differs 1
  third : three = .differs 0 ∨ three = .differs 1 ∨ three = .refused ∧ two = .differs 0

/-- The count after a verdict that leads to another attempt. -/
def Verdict.next (i : Nat) : Verdict → Option Nat
  | .refused => some (i + 1)
  | .differs index => some (index + 1)
  | .unread | .good => none

/-- The comparison finds no difference when there is none. -/
theorem firstDifference_eq_none {count : Nat} {rbuf pbuf : Nat → UInt8} :
    firstDifference count rbuf pbuf = none ↔ ∀ i < count, rbuf i = pbuf i := by
  simp [firstDifference]

/-- A good attempt has programmed the block, and read it back as it is. -/
theorem Attempt.verdict_eq_good {programmingSize : Nat} {readback : Bool} {pbuf : Nat → UInt8}
    {attempt : Attempt} :
    attempt.verdict programmingSize readback pbuf = .good ↔ attempt.programmed = true ∧
      (readback = true → ∃ rbuf, attempt.readBack = some rbuf ∧
        ∀ i < programmingSize, rbuf i = pbuf i) := by
  -- The verdict looks at the programming first, and at the bytes only when they are read.
  obtain ⟨programmed, readBack⟩ := attempt
  unfold verdict
  cases programmed with
  | false => simp
  | true =>
    cases readback with
    | false => simp
    | true =>
      cases readBack with
      | none => simp
      | some rbuf =>
        have same : firstDifference programmingSize rbuf pbuf = none ↔
          ∀ i < programmingSize, rbuf i = pbuf i := firstDifference_eq_none
        dsimp only
        cases compared : firstDifference programmingSize rbuf pbuf with
        | none => simpa using same.mp compared
        | some index => simpa [compared] using same

section Attempts

variable {State : Type} {chip : Chip State} {programmingSize : Nat} {readback : Bool}
  {pbuf : Nat → UInt8} {addr : Nat}

/-- One turn of the loop: the verdict says whether and with which count it goes on. -/
theorem tryProgram_succ {i : Nat} (below : i < 3) (turns : Nat) (state : State) :
    tryProgram chip programmingSize readback pbuf addr (turns + 1) i state =
      let (attempt, after) := attemptProgram chip programmingSize readback pbuf addr state
      let verdict := attempt.verdict programmingSize readback pbuf
      (verdict.next i).elim (some ⟨verdict = .good, after, [attempt]⟩) fun i =>
        (tryProgram chip programmingSize readback pbuf addr turns i after).map
          (Ended.prepend attempt) := by
  -- The five verdicts tell whether the loop goes on.
  rw [tryProgram, if_pos below]
  dsimp only
  cases Attempt.verdict programmingSize readback pbuf
    (attemptProgram chip programmingSize readback pbuf addr state).1 <;> rfl

/-- A verdict that leads to another attempt leaves the rest of the loop to it. -/
theorem tryProgram_next {i next : Nat} (below : i < 3) {state : State}
    (goes : (verdictAt chip programmingSize readback pbuf addr 0 state).next i = some next)
    (turns : Nat) :
    tryProgram chip programmingSize readback pbuf addr (turns + 1) i state =
      (tryProgram chip programmingSize readback pbuf addr turns next
        (afterAttempts chip programmingSize readback pbuf addr 1 state)).map
          (Ended.prepend (attemptProgram chip programmingSize readback pbuf addr state).1) := by
  -- The turn is the one that the verdict describes.
  have verdict : ((attemptProgram chip programmingSize readback pbuf addr state).1.verdict
      programmingSize readback pbuf).next i = some next := goes
  rw [tryProgram_succ below]
  dsimp only
  rw [verdict]
  rfl

/-- Any other verdict ends the loop with its attempt. -/
theorem tryProgram_last {i : Nat} (below : i < 3) {state : State}
    (stops : (verdictAt chip programmingSize readback pbuf addr 0 state).next i = none)
    (turns : Nat) :
    tryProgram chip programmingSize readback pbuf addr (turns + 1) i state =
      some ⟨verdictAt chip programmingSize readback pbuf addr 0 state = .good,
        afterAttempts chip programmingSize readback pbuf addr 1 state,
        [(attemptProgram chip programmingSize readback pbuf addr state).1]⟩ := by
  -- The turn is the one that the verdict describes.
  have verdict : ((attemptProgram chip programmingSize readback pbuf addr state).1.verdict
      programmingSize readback pbuf).next i = none := stops
  rw [tryProgram_succ below]
  dsimp only
  rw [verdict]
  rfl

/-- A count of three ends the loop. -/
theorem tryProgram_exits {i : Nat} (above : 3 ≤ i) (turns : Nat) (state : State) :
    tryProgram chip programmingSize readback pbuf addr (turns + 1) i state =
      some ⟨false, state, []⟩ := by
  rw [tryProgram, if_neg (by omega)]

/-- An attempt that leads to another one is one of those that the loop makes. -/
theorem endsWithin_next {attempts i next : Nat} (below : i < 3) {state : State}
    (goes : (verdictAt chip programmingSize readback pbuf addr 0 state).next i = some next) :
    EndsWithin chip programmingSize readback pbuf addr (attempts + 1) i state ↔
      EndsWithin chip programmingSize readback pbuf addr attempts next
        (afterAttempts chip programmingSize readback pbuf addr 1 state) := by
  -- A turn of the loop is one attempt, on either side.
  constructor
  · intro given
    obtain ⟨turns, ended, ran, most⟩ := given
    cases turns with
    | zero => cases ran
    | succ turns =>
      rw [tryProgram_next below goes, Option.map_eq_some_iff] at ran
      obtain ⟨rest, ran, rfl⟩ := ran
      exact ⟨turns, rest, ran, Nat.le_of_succ_le_succ most⟩
  · intro given
    obtain ⟨turns, rest, ran, most⟩ := given
    refine ⟨turns + 1,
      rest.prepend (attemptProgram chip programmingSize readback pbuf addr state).1, ?_,
      Nat.succ_le_succ most⟩
    rw [tryProgram_next below goes, ran]
    rfl

/-- A verdict that leaves no further attempt ends the loop after its own. -/
theorem endsWithin_single {i : Nat} (below : i < 3) {state : State}
    (final : ∀ next,
      (verdictAt chip programmingSize readback pbuf addr 0 state).next i = some next → 3 ≤ next)
    (more : Nat) :
    EndsWithin chip programmingSize readback pbuf addr (more + 1) i state := by
  -- The loop is left at once, or with the next turn, which finds the count used up.
  cases verdict : (verdictAt chip programmingSize readback pbuf addr 0 state).next i with
  | none => exact ⟨1, _, tryProgram_last below verdict 0, Nat.succ_le_succ (Nat.zero_le more)⟩
  | some next =>
    rw [endsWithin_next below verdict]
    exact ⟨1, _, tryProgram_exits (final next verdict) 0 _, Nat.zero_le more⟩

/-- A count below three makes an attempt. -/
theorem not_endsWithin_zero {i : Nat} (below : i < 3) {state : State} :
    ¬ EndsWithin chip programmingSize readback pbuf addr 0 i state := by
  -- The first turn makes an attempt, whatever comes of it.
  rintro ⟨turns, ended, ran, none⟩
  cases turns with
  | zero => cases ran
  | succ turns =>
    cases verdict : (verdictAt chip programmingSize readback pbuf addr 0 state).next i with
    | none =>
      rw [tryProgram_last below verdict, Option.some.injEq] at ran
      subst ran
      exact absurd none (Nat.not_succ_le_zero 0)
    | some next =>
      rw [tryProgram_next below verdict, Option.map_eq_some_iff] at ran
      obtain ⟨rest, _, rfl⟩ := ran
      exact absurd none (Nat.not_succ_le_zero _)

/-- The last attempt of a loop that returns is a good one. -/
theorem tryProgram_good {turns : Nat} : ∀ {i : Nat} {state : State} {ended : Ended State},
    tryProgram chip programmingSize readback pbuf addr turns i state = some ended →
    ended.returned = true → ∃ last, ended.attempts.getLast? = some last ∧
      last.verdict programmingSize readback pbuf = .good := by
  -- Induction on the turns that are left; the loop returns only from a good attempt.
  induction turns with
  | zero => exact fun ran _ => by cases ran
  | succ turns ih =>
    intro i state ended ran returned
    by_cases below : i < 3
    · cases verdict : (verdictAt chip programmingSize readback pbuf addr 0 state).next i with
      | none =>
        rw [tryProgram_last below verdict, Option.some.injEq] at ran
        subst ran
        exact ⟨_, rfl, of_decide_eq_true returned⟩
      | some next =>
        -- The attempts that follow have the last one.
        rw [tryProgram_next below verdict, Option.map_eq_some_iff] at ran
        obtain ⟨rest, ran, rfl⟩ := ran
        obtain ⟨last, found, good⟩ := ih ran returned
        refine ⟨last, ?_, good⟩
        show (_ :: rest.attempts).getLast? = some last
        rw [List.getLast?_cons, found]
        rfl
    · rw [tryProgram_exits (by omega), Option.some.injEq] at ran
      rw [← ran] at returned
      cases returned

end Attempts

/-- The two verdicts that lead to another attempt. -/
theorem Verdict.next_eq_some {verdict : Verdict} {i next : Nat} :
    verdict.next i = some next ↔
      verdict = .refused ∧ i + 1 = next ∨ ∃ index, verdict = .differs index ∧ index + 1 = next := by
  cases verdict <;> simp [Verdict.next]

/-- The counts of three attempts stay below three just when the loop starts over. -/
theorem startsOver_iff {one two three : Verdict} :
    StartsOver one two three ↔ ∃ i j k, one.next 0 = some i ∧ i < 3 ∧
      two.next i = some j ∧ j < 3 ∧ three.next j = some k ∧ k < 3 := by
  -- Both ways the verdicts are gone through; only few of them leave all counts below three.
  constructor
  · rintro ⟨first, second, third⟩
    rcases first with rfl | rfl | rfl <;> rcases second with rfl | rfl | ⟨rfl, other⟩ <;>
      rcases third with rfl | rfl | ⟨rfl, again⟩ <;> simp_all [Verdict.next]
  · rintro ⟨i, j, k, first, below, second, still, third, again⟩
    rw [Verdict.next_eq_some] at first second third
    -- A difference that leaves a count below three is one of the first two bytes.
    rcases first with ⟨rfl, rfl⟩ | ⟨one, rfl, rfl⟩ <;>
      rcases second with ⟨rfl, rfl⟩ | ⟨two, rfl, rfl⟩ <;>
      rcases third with ⟨rfl, rfl⟩ | ⟨three, rfl, rfl⟩ <;>
      constructor <;> simp only [Verdict.differs.injEq, reduceCtorEq, ne_eq, not_false_eq_true,
        and_true, true_and, false_or, or_false, or_true, false_and] <;> omega

section Area

variable {State : Type} (chip : Chip State) (programmingSize : Nat) (readback : Bool)
  (pbuf : Nat → UInt8) (addr : Nat)

/-- The loop makes three attempts at most just when it does not start over. -/
theorem endsWithin_three_iff (state : State) :
    EndsWithin chip programmingSize readback pbuf addr 3 0 state ↔
      ¬ StartsOver (verdictAt chip programmingSize readback pbuf addr 0 state)
        (verdictAt chip programmingSize readback pbuf addr 1 state)
        (verdictAt chip programmingSize readback pbuf addr 2 state) := by
  rw [startsOver_iff]
  -- The first of the counts that is not below three ends the loop.
  by_cases first : ∃ i,
      (verdictAt chip programmingSize readback pbuf addr 0 state).next 0 = some i ∧ i < 3
  · obtain ⟨i, one, below⟩ := first
    rw [endsWithin_next (by decide) one]
    by_cases second : ∃ j,
        (verdictAt chip programmingSize readback pbuf addr 1 state).next i = some j ∧ j < 3
    · obtain ⟨j, two, still⟩ := second
      have goes : (verdictAt chip programmingSize readback pbuf addr 0
        (afterAttempts chip programmingSize readback pbuf addr 1 state)).next i = some j := two
      rw [endsWithin_next below goes]
      by_cases third : ∃ k,
          (verdictAt chip programmingSize readback pbuf addr 2 state).next j = some k ∧ k < 3
      · obtain ⟨k, three, again⟩ := third
        have goes : (verdictAt chip programmingSize readback pbuf addr 0
          (afterAttempts chip programmingSize readback pbuf addr 1
            (afterAttempts chip programmingSize readback pbuf addr 1 state))).next j = some k :=
          three
        rw [endsWithin_next still goes]
        exact iff_of_false (not_endsWithin_zero again) fun ends =>
          ends ⟨i, j, k, one, below, two, still, three, again⟩
      · refine iff_of_true (endsWithin_single still (fun k three => ?_) 0) ?_
        · exact Nat.not_lt.mp fun again => third ⟨k, three, again⟩
        · rintro ⟨i', j', k, one', _, two', _, three, again⟩
          cases one.symm.trans one'
          cases two.symm.trans two'
          exact third ⟨k, three, again⟩
    · refine iff_of_true (endsWithin_single below (fun j two => ?_) 1) ?_
      · exact Nat.not_lt.mp fun still => second ⟨j, two, still⟩
      · rintro ⟨i', j, k, one', _, two, still, _⟩
        cases one.symm.trans one'
        exact second ⟨j, two, still⟩
  · refine iff_of_true (endsWithin_single (by decide) (fun i one => ?_) 2) ?_
    · exact Nat.not_lt.mp fun below => first ⟨i, one, below⟩
    · rintro ⟨i, _, _, one, below, _⟩
      exact first ⟨i, one, below⟩

/--
A block is given up after three attempts, and returned from only after a good one, just when the
answers of the chip do not let the count start over.
-/
theorem programOneArea_programs_iff (state : State) :
    (∃ turns ended,
        programOneArea chip programmingSize readback pbuf addr turns state = some ended ∧
          Programs programmingSize readback pbuf ended) ↔
      ¬ ∃ prepared, prepareArea chip programmingSize readback addr state = (true, prepared) ∧
        StartsOver (verdictAt chip programmingSize readback pbuf addr 0 prepared)
          (verdictAt chip programmingSize readback pbuf addr 1 prepared)
          (verdictAt chip programmingSize readback pbuf addr 2 prepared) := by
  -- The loop starts over only if it is entered at all.
  unfold programOneArea
  rcases prepareArea chip programmingSize readback addr state with ⟨_ | _, prepared⟩
  · -- Without its loop the function exits, and has made no attempt.
    refine iff_of_true ⟨0, _, rfl, Nat.zero_le 3, nofun⟩ ?_
    rintro ⟨other, ready, _⟩
    cases ready
  · have ends := endsWithin_three_iff chip programmingSize readback pbuf addr prepared
    dsimp only
    constructor
    · rintro ⟨turns, ended, ran, programs⟩ ⟨other, ready, starts⟩
      cases ready
      exact ends.mp ⟨turns, ended, ran, programs.attempts⟩ starts
    · intro given
      obtain ⟨turns, ended, ran, most⟩ := ends.mpr fun starts => given ⟨prepared, rfl, starts⟩
      refine ⟨turns, ended, ran, most, fun returned => ?_⟩
      obtain ⟨last, found, good⟩ := tryProgram_good ran returned
      exact ⟨last, found, Attempt.verdict_eq_good.mp good⟩

end Area

/-- A chip that is erased, takes every block, and is erased as before. -/
def wornChip : Chip Unit where
  status state := (some bwaitProgrammingSelection, state)
  readMemory _ _ state := (some fun _ => 0xff, state)
  beginUserFlash state := state
  programBlock _ _ state := (true, state)
  doneProgramming state := state

/-- With such a chip the block is programmed over and over, as it differs in its first byte. -/
theorem not_programs_wornChip :
    ¬ ∃ turns ended, programOneArea wornChip 256 true (fun _ => 0x12) 0 turns () = some ended ∧
      Programs 256 true (fun _ => 0x12) ended := by
  -- Every attempt differs at index 0, and the count never rises.
  have differs : verdictAt wornChip 256 true (fun _ => 0x12) 0 0 () = .differs 0 := by decide
  have never : ∀ turns i, i < 3 →
      tryProgram wornChip 256 true (fun _ => 0x12) 0 turns i () = none := by
    intro turns
    induction turns with
    | zero => exact fun _ _ => rfl
    | succ turns ih =>
      intro i below
      rw [tryProgram_next below (by rw [differs]; rfl)]
      exact congrArg _ (ih 1 (by decide))
  have prepared : prepareArea wornChip 256 true 0 () = (true, ()) := by decide +kernel
  rintro ⟨turns, ended, ran, _⟩
  unfold programOneArea at ran
  rw [prepared] at ran
  exact absurd ((never turns 0 (by decide)).symm.trans ran) nofun

end OpenwrtMisc.RenesasFlash
