import OpenwrtMisc.Mcp25xxfd.StartXmit
import OpenwrtMisc.Mcp25xxfd.Status

/-! The error state of the mcp25xxfd interface, over any run of passes and restarts. -/

namespace OpenwrtMisc.Mcp25xxfd

open BitMask

/-- The state that the error counters ask for. -/
def stateOf (trec : BitVec 32) : CanState :=
  if hasFlag trec canTrecTxbo then .busOff
  else if hasFlag trec canTrecTxbp ∨ hasFlag trec canTrecRxbp then .errorPassive
  else if hasFlag trec canTrecTxwarn ∨ hasFlag trec canTrecRxwarn then .errorWarning
  else .errorActive

/-- What is expected of a turn that completes, and of a restart. -/
def StateFollows (state : IstState) (label : IstLabel) (next : IstState) : Prop :=
  match label with
  | .turn calls words =>
    (istTurn calls words state).1 = .handled 0 → next.canState = stateOf words.trec
  | .doSetMode mode => mode = .start → doSetMode mode = 0 → next.canState ≠ .busOff

/-- Some flag of the error counters is set. -/
def TrecFlagged (trec : BitVec 32) : Prop :=
  hasFlag trec canTrecTxwarn ∨ hasFlag trec canTrecRxwarn ∨ hasFlag trec canTrecTxbp ∨
    hasFlag trec canTrecRxbp ∨ hasFlag trec canTrecTxbo

/-- The flags of CAN_BDIAG1 that a pass clears. -/
def canBdiag1Errors : BitVec 32 :=
  canBdiag1Bit0err ||| canBdiag1Bit1err ||| canBdiag1Stuferr ||| canBdiag1Formerr |||
    canBdiag1Nackerr

/-- Every transfer and every call succeeds that a pass makes up to the end of its handlers. -/
structure IstCalls.HandlersSucceed (calls : IstCalls) (status : Status) : Prop where
  clear : calls.clear = true
  serrif : hasFlag status.intf canIntSerrif → calls.serrif = true
  modif : hasFlag status.intf canIntModif → calls.modif = 0
  txatif : status.txatif ≠ 0 → calls.txatif = 0
  tefif : hasFlag status.intf canIntTefif → calls.tefif = 0
  rxovif : ∀ i < 32, status.rxovif.getLsbD i → calls.rxovif i = true
  eccif : hasFlag status.intf canIntEccif → calls.eccRead = true ∧ calls.eccWrite = true

/-- Every transfer and every call succeeds that a pass makes for this status. -/
structure IstCalls.Succeed (calls : IstCalls) (status : Status) : Prop extends
    calls.HandlersSucceed status where
  bdiag1 : hasFlag status.intf canIntCerrif → hasFlag status.bdiag1 canBdiag1Errors →
    calls.bdiag1 = true

/-- A turn handles the status that it reads, and nothing fails on the way. -/
structure TurnCompletes (calls : IstCalls) (words : Status) (state : IstState) : Prop where
  read : calls.read = true
  pending : pendingIrq (state.seen calls words).intf = true
  succeed : calls.Succeed (state.seen calls words)

/--
The steps after which the state is as expected.

A turn that completes sees some flag of the error counters, unless the interface has not left the
error-active state; a restart does not find it in the bus-off state.
-/
def StateIsRaised (state : IstState) : IstLabel → Prop
  | .turn calls words =>
    TurnCompletes calls words state → TrecFlagged words.trec ∨ state.canState = .errorActive
  | .doSetMode mode => mode = .start → state.canState ≠ .busOff

/-- A write to CAN_INT fails with its transfer. -/
theorem cmdWriteCanInt_ret (spi : Bool) (meanwhile : Meanwhile) (data mask : BitVec 32)
    (some : mask ≠ 0) (state : IstState) :
    (cmdWriteCanInt spi meanwhile data mask state).1 = 0 ↔ spi = true := by
  -- A mask that is not empty leaves only the transfer to fail.
  rw [cmdWriteCanInt, writeCanInt, cmdWriteMask, if_neg some]
  cases spi with
  | true => simp
  | false => simp [eio]

/-- The handler of the system error fails with its write. -/
theorem handleSerrif_ret (calls : IstCalls) (state : IstState) :
    (handleSerrif calls state).1 = 0 ↔ calls.serrif = true := by
  -- The handler returns what its write does.
  rw [← cmdWriteCanInt_ret calls.serrif calls.beforeSerrif
    (state.status.intf &&& ~~~(canIntSerrif ||| canIntModif ||| canIntIvmif))
    (canIntSerrif ||| canIntModif ||| canIntIvmif) (by decide) state]
  unfold handleSerrif
  dsimp only
  by_cases failed : (cmdWriteCanInt calls.serrif calls.beforeSerrif
      (state.status.intf &&& ~~~(canIntSerrif ||| canIntModif ||| canIntIvmif))
      (canIntSerrif ||| canIntModif ||| canIntIvmif) state).1 = 0
  · rw [if_neg (not_not_intro failed)]
    -- Whatever kind of error it was, it is only counted.
    split
    · simp [failed]
    · split <;> simp [failed]
  · rw [if_pos failed]

/-- The overflow handler succeeds when every write that it makes does. -/
theorem handleRxovif_ret (calls : IstCalls) (state : IstState) :
    (handleRxovif calls state).1 = 0 ↔
      ∀ i < 32, state.status.rxovif.getLsbD i = true → calls.rxovif i = true := by
  -- The loop is followed FIFO by FIFO.
  have rounds : ∀ left i (state : IstState), (rxovifLoop calls.rxovif left i state).1 = 0 ↔
      ∀ j, i ≤ j → j < i + left → state.status.rxovif.getLsbD j = true →
        calls.rxovif j = true := by
    intro left
    induction left with
    | zero =>
      intro i state
      simp only [rxovifLoop, true_iff]
      omega
    | succ left ih =>
      intro i state
      -- The FIFOs from `i` on are this one and those behind it.
      -- Only the test of this FIFO and the rounds behind it decide.
      have first : (∀ j, i ≤ j → j < i + (left + 1) → state.status.rxovif.getLsbD j = true →
          calls.rxovif j = true) ↔
          (state.status.rxovif.getLsbD i = true → calls.rxovif i = true) ∧
            ∀ j, i + 1 ≤ j → j < i + 1 + left → state.status.rxovif.getLsbD j = true →
              calls.rxovif j = true := by
        constructor
        · intro all
          exact ⟨all i (by omega) (by omega), fun j above below => all j (by omega) (by omega)⟩
        · intro both j above below
          rcases Nat.eq_or_lt_of_le above with same | later
          · exact same ▸ both.1
          · exact both.2 j later (by omega)
      rw [first]
      unfold rxovifLoop
      by_cases set : state.status.rxovif.getLsbD i = true
      · by_cases written : calls.rxovif i = true
        · rw [if_pos set, if_pos written]
          dsimp only
          rw [ih]
          simp [written, addError]
        · simp [set, written, eio]
      · rw [if_neg set, ih]
        simp [set]
  rw [handleRxovif, rounds]
  simp

/-- The handler of RAM errors succeeds when both of its transfers do. -/
theorem handleEccif_ret (calls : IstCalls) (state : IstState) :
    (handleEccif calls state).1 = 0 ↔ calls.eccRead = true ∧ calls.eccWrite = true := by
  -- The handler fails when the read does or the write does.
  unfold handleEccif
  cases calls.eccRead <;> cases calls.eccWrite <;> simp [eio]

/-- The handler of invalid messages always succeeds. -/
theorem handleIvmif_ret (state : IstState) : (handleIvmif state).1 = 0 := by
  -- Both branches return 0.
  unfold handleIvmif
  split <;> rfl

/-- A pass gets to the end of its handlers when all that are called succeed. -/
theorem runHandlers_ret (calls : IstCalls) {status : Status} {state : IstState}
    (seen : state.status = status) :
    (runHandlers (handlers calls) state).1 = 0 ↔
      (hasFlag status.intf canIntSerrif = true → calls.serrif = true) ∧
      (hasFlag status.intf canIntModif = true → calls.modif = 0) ∧
      (decide (status.txatif ≠ 0) = true → calls.txatif = 0) ∧
      (hasFlag status.intf canIntTefif = true → calls.tefif = 0) ∧
      (decide (status.rxovif ≠ 0) = true →
        ∀ i < 32, status.rxovif.getLsbD i = true → calls.rxovif i = true) ∧
      (hasFlag status.intf canIntEccif = true → calls.eccRead = true ∧ calls.eccWrite = true) := by
  -- Each handler answers to the flag that it is called for, and the status stays the same.
  have keeps : ∀ handler ∈ handlers calls, Keeps IstState.status handler :=
    fun handler member => (handlers_keep_core calls handler member).part Core.status
  have each : List.Forall₂ (fun ok handler =>
      ∀ state : IstState, state.status = status → ((handler state).1 = 0 ↔ ok))
      [hasFlag status.intf canIntSerrif = true → calls.serrif = true,
        hasFlag status.intf canIntModif = true → calls.modif = 0,
        decide (status.txatif ≠ 0) = true → calls.txatif = 0,
        hasFlag status.intf canIntTefif = true → calls.tefif = 0,
        decide (status.rxovif ≠ 0) = true →
          ∀ i < 32, status.rxovif.getLsbD i = true → calls.rxovif i = true,
        hasFlag status.intf canIntEccif = true → calls.eccRead = true ∧ calls.eccWrite = true,
        hasFlag status.intf canIntIvmif = true → True,
        hasFlag status.intf canIntCerrif = true → True] (handlers calls) := by
    refine .cons ?_ (.cons ?_ (.cons ?_ (.cons ?_ (.cons ?_ (.cons ?_ (.cons ?_
      (.cons ?_ .nil))))))) <;> apply whenAsked_succeeds
    · exact fun state _ => handleSerrif_ret calls state
    · exact fun _ _ => Iff.rfl
    · exact fun _ _ => Iff.rfl
    · exact fun _ _ => Iff.rfl
    · intro state same
      rw [handleRxovif_ret, same]
    · exact fun state _ => handleEccif_ret calls state
    · exact fun state _ => iff_true_intro (handleIvmif_ret state)
    · exact fun _ _ => iff_true_intro rfl
  rw [runHandlers_succeeds keeps each state seen]
  simp only [List.forall_mem_cons, List.not_mem_nil, false_imp_iff, implies_true, and_true]

/-- A flag of either mask is a flag of both. -/
theorem hasFlag_or (word first second : BitVec 32) :
    hasFlag word (first ||| second) = (hasFlag word first || hasFlag word second) := by
  -- The word misses both masks just when it misses each of them.
  rw [Bool.eq_iff_iff]
  simp only [hasFlag, Bool.or_eq_true, decide_eq_true_eq, ne_eq]
  rw [← not_and_or, not_iff_not, BitVec.and_or_distrib_left]
  exact BitVec.or_eq_zero_iff

/-- Nothing is to be cleared in CAN_BDIAG1 when nothing was before, and the bus error is absent. -/
theorem bdiag1Case_mask (flags id data : BitVec 32) (some : flags ≠ 0) (state : IstState) :
    (bdiag1Case flags id data state).bdiag1ClearMask = 0 ↔
      state.bdiag1ClearMask = 0 ∧ hasFlag state.status.bdiag1 flags = false := by
  -- The flag is set and goes into the mask, or the mask stays.
  unfold bdiag1Case
  by_cases set : hasFlag state.status.bdiag1 flags = true
  · rw [if_pos set]
    show state.bdiag1ClearMask ||| flags = 0#32 ↔ _
    have kept : ¬ flags = 0#32 := some
    simp [set, kept]
  · simp [set]

/-- The handler of bus errors has something to clear for each of them. -/
theorem handleCerrif_mask (state : IstState) :
    (handleCerrif state).2.bdiag1ClearMask = 0 ↔
      state.bdiag1ClearMask = 0 ∧ hasFlag state.status.bdiag1 canBdiag1Errors = false := by
  -- Each of the five cases adds its flags to the mask, or nothing.
  have status (flags id data : BitVec 32) (state : IstState) :
      (bdiag1Case flags id data state).status = state.status :=
    congrArg Core.status (bdiag1Case_keeps flags id data state).1
  unfold handleCerrif
  dsimp only
  rw [bdiag1Case_mask _ _ _ (by decide), bdiag1Case_mask _ _ _ (by decide),
    bdiag1Case_mask _ _ _ (by decide), bdiag1Case_mask _ _ _ (by decide),
    bdiag1Case_mask _ _ _ (by decide)]
  simp only [status, canBdiag1Errors, hasFlag_or, Bool.or_eq_false_iff, and_assoc]

/-- A pass that gets through its handlers has something to clear when a bus error was seen. -/
theorem runHandlers_mask (calls : IstCalls) {state : IstState} (fresh : state.bdiag1ClearMask = 0)
    (done : (runHandlers (handlers calls) state).1 = 0) :
    (runHandlers (handlers calls) state).2.bdiag1ClearMask ≠ 0 ↔
      hasFlag state.status.intf canIntCerrif = true ∧
        hasFlag state.status.bdiag1 canBdiag1Errors = true := by
  -- The other handlers keep the mask, and so the last one starts from an empty mask.
  have others : ∀ handler ∈ (handlers calls).dropLast,
      Keeps (fun state => (state.core, state.bdiag1ClearMask)) handler := by
    have returns (ret : Int) : Keeps (fun state => (state.core, state.bdiag1ClearMask))
        (returning ret) := fun _ => rfl
    simp only [handlers, List.dropLast, List.forall_mem_cons, List.not_mem_nil, false_imp_iff,
      implies_true, and_true]
    refine ⟨?_, ?_, ?_, ?_, ?_, ?_, ?_⟩ <;> apply whenAsked_keeps
    · exact handleSerrif_keeps calls
    · exact returns calls.modif
    · exact returns calls.txatif
    · exact returns calls.tefif
    · exact (handleRxovif_keeps calls).part fun wide => (wide.1, wide.2.2)
    · exact (handleEccif_keeps calls).part fun wide => (wide.1, wide.2.2)
    · exact handleIvmif_keeps.part fun wide => (wide.1, wide.2.2)
  have kept := runHandlers_keeps others state
  rw [Prod.mk.injEq] at kept
  have status : (runHandlers (handlers calls).dropLast state).2.status = state.status :=
    congrArg Core.status kept.1
  have split : runHandlers (handlers calls) state =
      runHandlers ((handlers calls).dropLast ++
        [whenAsked (fun status => hasFlag status.intf canIntCerrif) handleCerrif]) state := rfl
  rw [split, runHandlers_append] at done ⊢
  by_cases failed : (runHandlers (handlers calls).dropLast state).1 = 0
  · rw [if_neg (not_not_intro failed), runHandlers_single, whenAsked, status]
    by_cases asked : hasFlag state.status.intf canIntCerrif = true
    · have mask := handleCerrif_mask (runHandlers (handlers calls).dropLast state).2
      rw [kept.2, status, fresh] at mask
      rw [if_pos asked, ne_eq, mask]
      simp [asked]
    · rw [if_neg asked, kept.2, fresh]
      simp [asked]
  · rw [if_pos failed] at done
    exact absurd done failed

/-- A test of CAN_TREC changes three fields, and keeps all that these do not concern. -/
theorem trecCase_keeps {α : Type} (part : IstState → α)
    (same : ∀ (state : IstState) newState id data, part { state with
      newState := newState, canErrId := id, canErrData := data } = part state)
    (flag : BitVec 32) (newState : CanState) (data : BitVec 32) (state : IstState) :
    part (trecCase flag newState data state) = part state := by
  -- The flag is set or not.
  unfold trecCase
  split
  · exact same state _ _ _
  · rfl

/-- All tests of CAN_TREC together keep it as well. -/
theorem handleTrec_keeps {α : Type} (part : IstState → α)
    (same : ∀ (state : IstState) newState id data, part { state with
      newState := newState, canErrId := id, canErrData := data } = part state)
    (state : IstState) : part (handleTrec state) = part state := by
  have kept := trecCase_keeps part same
  -- The last test adds no bits of data.
  have busOff (state : IstState) : part (trecBusOff state) = part state := by
    unfold trecBusOff
    split
    · exact same state _ _ state.canErrData
    · rfl
  unfold handleTrec
  dsimp only
  rw [busOff, kept, kept, kept, kept]

/-- The state that the tests of CAN_TREC come to. -/
theorem handleTrec_newState (state : IstState) :
    ((handleTrec state).newState = stateOf state.status.trec ∧ TrecFlagged state.status.trec) ∨
      ((handleTrec state).newState = state.newState ∧ ¬ TrecFlagged state.status.trec) := by
  have status := trecCase_keeps IstState.status fun _ _ _ _ => rfl
  -- A test reads the status, which no test changes, and overwrites the new state.
  have raised (flag : BitVec 32) (newState : CanState) (data : BitVec 32) (state : IstState) :
      (trecCase flag newState data state).newState =
        if hasFlag state.status.trec flag then newState else state.newState := by
    unfold trecCase
    split <;> rfl
  have busOff (state : IstState) : (trecBusOff state).newState =
      if hasFlag state.status.trec canTrecTxbo then .busOff else state.newState := by
    unfold trecBusOff
    split <;> rfl
  unfold handleTrec
  dsimp only
  -- The later tests overrule the earlier ones, and so the gravest state remains.
  simp only [busOff, raised, status, stateOf, TrecFlagged]
  cases hasFlag state.status.trec canTrecTxbo <;> cases hasFlag state.status.trec canTrecRxbp <;>
    cases hasFlag state.status.trec canTrecTxbp <;>
    cases hasFlag state.status.trec canTrecRxwarn <;>
    cases hasFlag state.status.trec canTrecTxwarn <;> simp

/-- The change of the state touches neither the flags nor what is to be cleared. -/
theorem enterState_spec (calls : IstCalls) (state : IstState) :
    (enterState calls state).canState = state.newState ∧
      (enterState calls state).bdiag1ClearMask = state.bdiag1ClearMask ∧
      (enterState calls state).flags = state.flags ∧
      (enterState calls state).restartMs = state.restartMs := by
  unfold enterState errorSkb
  dsimp only
  -- An error frame is passed on, or not.
  split
  · split
    · exact ⟨rfl, rfl, rfl, rfl⟩
    · exact ⟨rfl, rfl, rfl, rfl⟩
  · exact ⟨rfl, rfl, rfl, rfl⟩

/-- What follows from the state does not change it again. -/
theorem followState_spec (calls : IstCalls) (state : IstState) :
    (followState calls state).canState = state.canState ∧
      (followState calls state).bdiag1ClearMask = state.bdiag1ClearMask := by
  -- Each branch sets the state of the interface only.
  unfold followState
  split
  · split
    · exact ⟨rfl, rfl⟩
    · exact ⟨rfl, rfl⟩
  · split
    · exact ⟨rfl, rfl⟩
    · exact ⟨rfl, rfl⟩

/-- The tests of CAN_TREC leave alone what is to be cleared. -/
theorem handleTrec_mask (state : IstState) :
    (handleTrec state).bdiag1ClearMask = state.bdiag1ClearMask :=
  handleTrec_keeps IstState.bdiag1ClearMask (fun _ _ _ _ => rfl) state

/-- Without any flag the error counters ask for the error-active state. -/
theorem stateOf_unflagged {trec : BitVec 32} (none : ¬ TrecFlagged trec) :
    stateOf trec = .errorActive := by
  -- Every flag that asks for another state is clear.
  simp only [TrecFlagged, not_or] at none
  simp [stateOf, none]

/-- What has to succeed besides the first write is what the handlers do. -/
theorem IstCalls.handlersSucceed_iff (calls : IstCalls) {state : IstState} {status : Status}
    (seen : state.status = status) :
    calls.HandlersSucceed status ↔
      calls.clear = true ∧ (runHandlers (handlers calls) state).1 = 0 := by
  -- Both sides ask for the same calls, handler by handler.
  rw [runHandlers_ret calls seen]
  constructor
  · intro succeed
    refine ⟨succeed.clear, succeed.serrif, succeed.modif, ?_, succeed.tefif, ?_, succeed.eccif⟩
    · exact fun some => succeed.txatif (of_decide_eq_true some)
    · exact fun _ => succeed.rxovif
  · intro all
    obtain ⟨clear, serrif, modif, txatif, tefif, rxovif, eccif⟩ := all
    refine ⟨clear, serrif, modif, fun some => txatif (decide_eq_true some), tefif, ?_, eccif⟩
    -- A FIFO with an overflow is one for which the handler is called.
    intro i inside set
    refine rxovif (decide_eq_true fun none => ?_) i inside set
    rw [none] at set
    simp at set

/-- What has to succeed besides that is the last write, where it is made. -/
theorem IstCalls.succeed_iff (calls : IstCalls) {state : IstState} {status : Status}
    (seen : state.status = status) :
    calls.Succeed status ↔
      calls.clear = true ∧ (runHandlers (handlers calls) state).1 = 0 ∧
        (hasFlag status.intf canIntCerrif = true → hasFlag status.bdiag1 canBdiag1Errors = true →
          calls.bdiag1 = true) := by
  -- The handlers succeed together when each of their calls does.
  rw [← and_assoc, ← calls.handlersSucceed_iff seen]
  constructor
  · intro succeed
    exact ⟨succeed.toHandlersSucceed, succeed.bdiag1⟩
  · intro both
    exact ⟨both.1, both.2⟩

/-- A pass completes when all that it does succeeds, and then the state is the new one. -/
theorem handleStatus_spec (calls : IstCalls) (state : IstState) :
    ((handleStatus calls state).1 = 0 ↔ calls.Succeed state.status) ∧
      ((handleStatus calls state).1 = 0 →
        (handleStatus calls state).2.canState = stateOf state.status.trec ∧
            TrecFlagged state.status.trec ∨
          (handleStatus calls state).2.canState = state.canState ∧
            ¬ TrecFlagged state.status.trec) := by
  -- The pass is its first write, its handlers, and the change of the state with the last write.
  have cleared := cmdWriteCanInt_ret calls.clear calls.beforeClear
    (state.status.intf &&& ~~~clearIrq) clearIrq (by decide) state
  obtain ⟨written, writtenEq⟩ : ∃ written, written = cmdWriteCanInt calls.clear calls.beforeClear
      (state.status.intf &&& ~~~clearIrq) clearIrq state := ⟨_, rfl⟩
  rw [← writtenEq] at cleared
  have unfolded := handleStatus_eq calls state
  dsimp only at unfolded
  rw [← writtenEq] at unfolded
  obtain ⟨begun, begunEq⟩ : ∃ begun, begun = beginPass written.2 := ⟨_, rfl⟩
  rw [← begunEq] at unfolded
  have seen : begun.status = state.status := by
    rw [begunEq, writtenEq]
    rfl
  have begunState : begun.newState = state.canState := by
    rw [begunEq, writtenEq]
    rfl
  rw [calls.succeed_iff seen, ← cleared]
  by_cases wrote : written.1 = 0
  · rw [if_neg (not_not_intro wrote)] at unfolded
    by_cases ran : (runHandlers (handlers calls) begun).1 = 0
    · -- All handlers have succeeded, and only the last write is left.
      rw [if_neg (not_not_intro ran)] at unfolded
      have core := runHandlers_keeps (handlers_keep_core calls) begun
      have mask := runHandlers_mask calls (show begun.bdiag1ClearMask = 0 by rw [begunEq]; rfl) ran
      obtain ⟨entered, entersMask, _⟩ :=
        enterState_spec calls (handleTrec (runHandlers (handlers calls) begun).2)
      obtain ⟨followed, clearMask⟩ := followState_spec calls
        (enterState calls (handleTrec (runHandlers (handlers calls) begun).2))
      have status : (runHandlers (handlers calls) begun).2.status = state.status :=
        (congrArg Core.status core).trans seen
      have newState : (runHandlers (handlers calls) begun).2.newState = state.canState :=
        (congrArg Core.newState core).trans begunState
      rw [entersMask, handleTrec_mask] at clearMask
      rw [seen, ← clearMask] at mask
      rw [unfolded]
      refine ⟨?_, fun _ => ?_⟩
      · -- The last write is made when a bus error was seen, and its result is that of the pass.
        have eioNe : -eio ≠ 0 := by decide
        by_cases asked : (followState calls (enterState calls
            (handleTrec (runHandlers (handlers calls) begun).2))).bdiag1ClearMask ≠ 0
        · obtain ⟨cerrif, errors⟩ := mask.mp asked
          cases calls.bdiag1 with
          | true => simp [wrote, ran]
          | false =>
            rw [if_pos ⟨asked, rfl⟩]
            simp [cerrif, errors, eioNe]
        · have absent : hasFlag state.status.intf canIntCerrif = true →
              ¬ hasFlag state.status.bdiag1 canBdiag1Errors = true :=
            fun cerrif errors => asked (mask.mpr ⟨cerrif, errors⟩)
          simp only [asked, false_and, if_false, wrote, ran, true_and, true_iff]
          exact fun cerrif errors => absurd errors (absent cerrif)
      · have trec := handleTrec_newState (runHandlers (handlers calls) begun).2
        rw [status, newState] at trec
        rw [followed, entered]
        exact trec
    · -- A handler has failed, and its result is that of the pass.
      rw [if_pos ran] at unfolded
      rw [unfolded]
      exact ⟨iff_of_false ran fun all => ran all.2.1, fun done => absurd done ran⟩
  · -- Without the first write nothing is done.
    rw [if_pos wrote] at unfolded
    rw [unfolded]
    exact ⟨iff_of_false wrote fun all => wrote all.1, fun done => absurd done wrote⟩

/-- A turn follows the error counters just when the state was raised, or had not left the start. -/
theorem istTurn_follows_iff (calls : IstCalls) (words : Status) (state : IstState) :
    ((istTurn calls words state).1 = .handled 0 →
        (istTurn calls words state).2.canState = stateOf words.trec) ↔
      (TurnCompletes calls words state →
        TrecFlagged words.trec ∨ state.canState = .errorActive) := by
  -- The turn is a pass over the status that it has just read.
  have turn := istTurn_eq calls words state
  have status : (state.begun calls words).status = state.seen calls words := rfl
  have before : (state.begun calls words).canState = state.canState := rfl
  obtain ⟨ret, canState⟩ := handleStatus_spec calls (state.begun calls words)
  generalize state.begun calls words = begun at *
  rw [status] at ret canState
  rw [before] at canState
  by_cases read : calls.read = true
  · by_cases pending : pendingIrq (state.seen calls words).intf = true
    · rw [if_pos read, if_pos pending] at turn
      have completes : TurnCompletes calls words state ↔ (handleStatus calls begun).1 = 0 := by
        rw [ret]
        exact ⟨TurnCompletes.succeed, fun succeed => ⟨read, pending, succeed⟩⟩
      have handled : (istTurn calls words state).1 = .handled 0 ↔
          (handleStatus calls begun).1 = 0 := by
        rw [turn, Turn.handled.injEq]
      have last : (istTurn calls words state).2 = (handleStatus calls begun).2 := by rw [turn]
      rw [handled, last, completes]
      refine imp_congr_right fun done => ?_
      -- With a flag the new state is right; without one it is the old state that has to be.
      have trec : (state.seen calls words).trec = words.trec := rfl
      rw [trec] at canState
      rcases canState done with raised | kept
      · exact iff_of_true raised.1 (Or.inl raised.2)
      · rw [kept.1, stateOf_unflagged kept.2]
        exact ⟨Or.inr, fun given => given.resolve_left kept.2⟩
    · rw [if_pos read, if_neg pending] at turn
      rw [turn]
      exact iff_of_true (fun done => nomatch done) fun done => absurd done.pending pending
  · rw [if_neg read] at turn
    rw [turn]
    exact iff_of_true (fun done => nomatch done) fun done => absurd done.read read

/--
The state follows the error counters over a run just when it only has to be raised.

The run is any sequence of turns of the interrupt thread and of restarts, from any state on.
-/
theorem stateFollows_iff_raised (start : IstState) (labels : List IstLabel) :
    (istMachine start).Along StateFollows start labels ↔
      (istMachine start).Along (fun state label _ => StateIsRaised state label) start labels := by
  -- Each step decides for itself, on the state that the steps before it have left.
  apply Machine.along_congr
  intro state label next stepped
  cases label with
  | turn calls words =>
    rw [istStep_turn stepped]
    exact istTurn_follows_iff calls words state
  | doSetMode mode =>
    -- The restart leaves the state as it is.
    simp only [istMachine, istStep, Option.some.injEq] at stepped
    subst stepped
    refine imp_congr_right fun restart => ?_
    subst restart
    exact ⟨fun follows => follows rfl, fun on _ => on⟩

/-- `mcp25xxfd_start_xmit` accepts a frame that it has a FIFO for just outside the bus-off state. -/
theorem startXmit_ok_iff {echo : EchoTable Nat} {layout : TxLayout} (dlcs : DlcTable)
    (payloadSize : Nat) {calls : XmitCalls} (frame : Frame) {xmit : XmitState echo} {fifo : Nat}
    (valid : calls.invalid = false) (accepted : calls.spiAsync = true)
    (found : allocateFifo layout xmit.tx = some fifo) (state : IstState)
    (shared : xmit.busOff = decide (state.canState = .busOff)) :
    (startXmit layout dlcs payloadSize calls frame xmit).1 = .ok ↔ state.canState ≠ .busOff := by
  -- In the bus-off state the call ends before it looks for a FIFO, and in any other one it finds
  -- it.
  by_cases off : state.canState = .busOff
  · -- In the bus-off state the call stops the queue and wants the frame again.
    have busOff : xmit.busOff = true := by rw [shared, decide_eq_true off]
    simp [startXmit, valid, busOff, off]
  · have on : ¬ xmit.busOff = true := by rw [shared, decide_eq_true_eq]; exact off
    obtain ⟨ok, _⟩ := transmit_ok dlcs payloadSize fifo frame
      { xmit with
        tx := submitFifo layout fifo xmit.tx
        fifoUsage := countAt fifo xmit.fifoUsage }
    simp only [startXmit, valid, found, accepted, Bool.false_eq_true, if_false, if_neg on]
    exact iff_of_true ok off

/-- The interrupts that `mcp25xxfd_enable_interrupts` enables. -/
def enabledInterrupts : BitVec 32 :=
  (canIntTefif ||| canIntRxif ||| canIntModif ||| canIntSerrif ||| canIntIvmif ||| canIntCerrif |||
    canIntRxovif ||| canIntEccif) <<< canIntIeShift

/-- The state that `mcp25xxfd_open` leaves, with the restart delay that the user has set. -/
def IstState.opened (restartMs : Nat) : IstState where
  status := { intf := enabledInterrupts, rxovif := 0, txatif := 0, trec := 0, bdiag1 := 0 }
  canInt := enabledInterrupts
  canState := .errorActive
  newState := .errorActive
  canErrId := 0
  canErrData _ := 0
  bdiag1ClearMask := 0
  bdiag1ClearValue := 0
  restartMs := restartMs
  forceQuit := false
  queueStopped := false
  clock := ClockState.probed 0 0
  stats :=
    { errorWarning := 0, errorPassive := 0, busOff := 0, txMab := 0, rxMab := 0, rxOverflow := 0
      rxFrameErrors := 0 }
  errorSkbs := []
  intWrites := []

/-- Between two transfers nothing happens. -/
def Meanwhile.quiet : Meanwhile where
  levels := 0
  raised := 0

/-- All transfers of a pass succeed, and the controller signals this before the status is read. -/
def IstCalls.signalled (raised : BitVec 32) : IstCalls where
  read := true
  clear := true
  serrif := true
  modif := 0
  txatif := 0
  tefif := 0
  rxovif _ := true
  eccRead := true
  eccWrite := true
  errorSkb := true
  allProcessed := false
  disable := true
  sleep := .ok ()
  bdiag1 := true
  beforeRead := { levels := 0, raised := raised }
  beforeClear := .quiet
  beforeSerrif := .quiet
  beforeDisable := .quiet

/-- The error counters rise to the warning level, and fall again. -/
def warnedAndRecovered : List IstLabel :=
  [.turn (.signalled canIntCerrif)
      { intf := 0, rxovif := 0, txatif := 0, trec := canTrecTxwarn, bdiag1 := 0 },
    .turn (.signalled canIntCerrif) { intf := 0, rxovif := 0, txatif := 0, trec := 0, bdiag1 := 0 }]

/-- The interface stays in the warning state, although no error counter asks for it. -/
theorem warnedAndRecovered_not_follows :
    ¬ ∀ (restartMs : Nat) (labels : List IstLabel),
      (istMachine (.opened restartMs)).Along StateFollows (.opened restartMs) labels := by
  -- The run is a warning and a pass without any flag.
  intro claim
  have along := claim 100 warnedAndRecovered
  have last := ((along _ rfl).2 _ rfl).1 rfl
  exact absurd last (by decide)

end OpenwrtMisc.Mcp25xxfd
