import OpenwrtMisc.C2Tool.Transfers

/-! What reaches a target of a block read, when a transfer on the way fails. -/

namespace OpenwrtMisc.C2Tool

/-- What a transfer that succeeds does at the target. -/
inductive Move where
  /-- The target takes a byte. -/
  | take (byte : UInt8)
  /-- The target offers its next byte. -/
  | offer
  /-- The target is only asked for its state. -/
  | look
  deriving DecidableEq, Repr

/-- The bytes that a target offers in a move, and the target after it. -/
def Target.move (target : Target) : Move → List UInt8 × Target
  | .take byte => ([], target.receive byte)
  | .offer => ([target.send.1], target.send.2)
  | .look => ([], target)

/-- The bytes that a target offers in moves that all reach it, and the target after them. -/
def Target.meet (target : Target) : List Move → List UInt8 × Target
  | [] => ([], target)
  | move :: rest =>
    let first := target.move move
    let others := first.2.meet rest
    (first.1 ++ others.1, others.2)

/-- The number of transfers that succeed before the first that fails, of so many. -/
def succeeding (fails : Nat → Bool) : Nat → Nat
  | 0 => 0
  | count + 1 => if fails 0 then 0 else succeeding (fun n => fails (n + 1)) count + 1

/-- The moves of the bytes of a block, each of which waits for a byte and reads it. -/
def byteMoves : Nat → List Move
  | 0 => []
  | left + 1 => .look :: .offer :: byteMoves left

/-- The moves of a block read, whose command and length are answered. -/
def readMoves (addr length : Nat) : List Move :=
  [.take fpdatBlockRead, .look, .look, .look,
    .take (UInt8.ofNat (addr >>> 8)), .look,
    .take (UInt8.ofNat (addr &&& 0xff)), .look,
    .take (lengthByte length), .look, .look, .look] ++ byteMoves length

/-- Two moves for each byte. -/
@[simp] theorem length_byteMoves (left : Nat) : (byteMoves left).length = 2 * left := by
  -- The induction is on the bytes.
  induction left with
  | zero => rfl
  | succ left ih =>
    simp only [byteMoves, List.length_cons, ih]
    omega

/-- A block read has as many moves as transfers. -/
@[simp] theorem length_readMoves (addr length : Nat) :
    (readMoves addr length).length = 12 + 2 * length := by
  -- Twelve moves of the command, and two for each byte.
  simp [readMoves]
  omega

/-- The calls on a target obey the laws of sequencing. -/
instance : LawfulMonad C2 :=
  LawfulMonad.mk' C2
    (fun call => by
      -- To hand a result on unchanged is to do nothing with it.
      funext target
      show (match call target with
        | (none, after) => (none, after)
        | (some value, after) => (some value, after)) = call target
      split <;> simp [*])
    (fun _ _ => rfl)
    (fun call next last => by
      -- A failure of the first call leaves out the other two on either side.
      funext target
      cases first : call target with
      | mk value between =>
        cases value with
        | none => rw [C2.bind_fail (C2.bind_fail first), C2.bind_fail first]
        | some value =>
          rw [C2.bind_ok first]
          cases second : next value between with
          | mk value after =>
            cases value with
            | none => rw [C2.bind_fail ((C2.bind_ok first).trans second), C2.bind_fail second]
            | some value =>
              rw [C2.bind_ok ((C2.bind_ok first).trans second), C2.bind_ok second])

/-- What cannot fail: a result, and a change of the target. -/
def C2.act {α : Type} (value : Target → α) (step : Target → Target) : C2 α :=
  fun target => (some (value target), step target)

/-- Moves that are made one after the other, each in a transfer of its own. -/
def play : List Move → C2 (List UInt8)
  | [] => pure []
  | move :: rest => do
    transfer
    let first ← C2.act (fun target => (target.move move).1) fun target => (target.move move).2
    let others ← play rest
    pure (first ++ others)

/-- A move is a transfer, what it does at the target, and the moves behind it. -/
theorem play_cons {α : Type} (move : Move) (rest : List Move) {value : Target → α}
    {step : Target → Target} {next : α → C2 (List UInt8)}
    (same : ∀ target, (do let others ← play rest; pure ((target.move move).1 ++ others)) =
      next (value target))
    (moved : ∀ target, (target.move move).2 = step target) :
    play (move :: rest) = (do let value ← (do transfer; C2.act value step); next value) := by
  -- What is done at the target cannot fail, so the moves behind it start from there.
  have inner : (do
      let first ← C2.act (fun target => (target.move move).1) fun target => (target.move move).2
      let others ← play rest
      pure (first ++ others)) = C2.act value step >>= next := by
    funext target
    exact (congrFun (same target) _).trans (congrArg (next (value target)) (moved target))
  rw [bind_assoc]
  exact congrArg (fun later : C2 (List UInt8) => transfer >>= fun _ => later) inner

/-- A byte that is taken is one that was written. -/
theorem play_take (byte : UInt8) (rest : List Move) :
    play (.take byte :: rest) = (do c2WriteDr byte; play rest) :=
  play_cons (.take byte) rest (fun _ => by simp [Target.move]) fun _ => rfl

/-- A byte that is offered is one that is read. -/
theorem play_offer (rest : List Move) :
    play (.offer :: rest) = (do
      let data ← c2ReadDr
      let block ← play rest
      pure (data :: block)) :=
  play_cons .offer rest (fun _ => rfl) fun _ => rfl

/-- A look at the target is a transfer and nothing else. -/
theorem play_look (rest : List Move) : play (.look :: rest) = (do transfer; play rest) := by
  -- A look leaves the target alone, which is what nothing behind the transfer does too.
  have played : play (.look :: rest) =
      (do let _ ← (do transfer; C2.act (fun _ => ()) id); play rest) :=
    play_cons .look rest (fun _ => by simp [Target.move]) fun _ => rfl
  rw [played, bind_assoc]
  rfl

/-- The bytes of a block are played one after the other. -/
theorem play_byteMoves (left : Nat) : play (byteMoves left) = readBlock left := by
  -- The induction is on the bytes.
  induction left with
  | zero => rfl
  | succ left ih => rw [byteMoves, play_look, play_offer, ih, readBlock, c2PiGetData, bind_assoc]

/-- A chunk of at most one block is read by playing its moves. -/
theorem c2FlashRead_eq_play {addr length : Nat} (positive : length ≠ 0) (small : length ≤ 256) :
    c2FlashRead addr length = play (readMoves addr length) := by
  -- A single block takes the whole chunk.
  have whole : blocksize length = length := by
    unfold blocksize
    split <;> omega
  have none : c2FlashRead ((addr + length) % 2 ^ 32) 0 = pure [] := by
    rw [c2FlashRead, dif_pos rfl]
  rw [c2FlashRead, dif_neg positive, whole, Nat.sub_self, none]
  -- The command and the length are answered, the bytes of the address are not.
  simp [readMoves, play_take, play_look, play_byteMoves, blockCommand, c2PiCommand,
    c2PiWriteCommand, c2PiCheckCommand]

/-- All transfers succeed when none of them fails. -/
theorem succeeding_eq_iff (count : Nat) :
    ∀ fails : Nat → Bool, succeeding fails count = count ↔ ∀ n < count, fails n = false := by
  induction count with
  | zero => exact fun _ => ⟨fun _ _ small => absurd small (Nat.not_lt_zero _), fun _ => rfl⟩
  | succ count ih =>
    intro fails
    rw [succeeding, Nat.forall_lt_succ_left, ← ih fun n => fails (n + 1)]
    -- The first transfer counts when it succeeds, and no other one when it does not.
    cases first : fails 0 <;> simp

/-- The target with another fate of its transfers. -/
def Target.under (target : Target) (fails : Nat → Bool) : Target := { target with fails := fails }

/-- A move does not change the fate of the transfers, nor depend on it. -/
theorem Target.move_under (target : Target) (fails : Nat → Bool) (move : Move) :
    (target.under fails).move move =
      ((target.move move).1, (target.move move).2.under fails) := by
  -- One move is a byte that is taken or offered, or none.
  cases move with
  | take byte =>
    simp only [Target.move, Target.under, Target.receive]
    repeat' split
    all_goals rfl
  | offer =>
    simp only [Target.move, Target.under, Target.send]
    split <;> rfl
  | look => rfl

/-- Nor do several. -/
theorem Target.meet_under (moves : List Move) :
    ∀ (target : Target) (fails : Nat → Bool), (target.under fails).meet moves =
      ((target.meet moves).1, (target.meet moves).2.under fails) := by
  -- The induction is on the moves, none of which looks at the fate of a transfer.
  induction moves with
  | nil => exact fun _ _ => rfl
  | cons move rest ih =>
    intro target fails
    simp only [Target.meet, Target.move_under, ih]

/--
Moves reach the target as far as their transfers succeed.

They have a result when all do, and else the transfer that fails is the last one.
-/
theorem play_apply (moves : List Move) :
    ∀ target : Target, play moves target =
      let good := succeeding target.fails moves.length
      let met := target.meet (moves.take good)
      if good = moves.length then (some met.1, met.2.under fun n => target.fails (good + n))
      else (none, met.2.under fun n => target.fails (good + 1 + n)) := by
  -- The induction is on the moves.
  induction moves with
  | nil =>
    intro target
    simp [play, Target.meet, succeeding, Target.under, Pure.pure]
  | cons move rest ih =>
    intro target
    cases first : target.fails 0 with
    | true =>
      -- The first transfer fails, and nothing reaches the target.
      have failed : transfer target = (none, target.under fun n => target.fails (n + 1)) := by
        simp [transfer, first, Target.under]
      rw [play, C2.bind_fail failed]
      simp [succeeding, first, Target.meet, Nat.add_comm]
    | false =>
      have sent : transfer target = (some (), target.under fun n => target.fails (n + 1)) := by
        simp [transfer, first, Target.under]
      have later := ih ((target.move move).2.under fun n => target.fails (n + 1))
      simp only [Target.meet_under] at later
      rw [play, C2.bind_ok sent]
      -- The move is made, and the ones behind it begin with the next transfer.
      have acted : C2.act (fun target => (target.move move).1) (fun target => (target.move move).2)
          (target.under fun n => target.fails (n + 1)) = (some (target.move move).1,
            (target.move move).2.under fun n => target.fails (n + 1)) := by
        simp only [C2.act, Target.move_under]
      rw [C2.bind_ok acted]
      by_cases all : succeeding (fun n => target.fails (n + 1)) rest.length = rest.length
      · have played := later.trans (if_pos all)
        rw [C2.bind_ok played]
        simp [succeeding, first, all, Target.meet, Target.under, Pure.pure, Nat.add_right_comm]
      · have played := later.trans (if_neg all)
        rw [C2.bind_fail played]
        simp [succeeding, first, all, Target.meet, Target.under, Nat.add_right_comm]

end OpenwrtMisc.C2Tool
