import OpenwrtMisc.Mcp25xxfd.ErrorState

/-! The interrupt flags of the mcp25xxfd: which events a clearing write of a pass can lose. -/

namespace OpenwrtMisc.Mcp25xxfd

open BitMask

/-- The flags that each tell of one event, and that nobody sets a second time for it. -/
def eventFlags : BitVec 32 := canIntSerrif ||| canIntModif ||| canIntCerrif ||| canIntIvmif

/-- What is expected of a write: an event that it clears was in the status that is handled. -/
def ClearsHandled (intf : BitVec 32) (write : BitVec 32 × BitVec 32) : Prop :=
  Subset (write.1 &&& ~~~write.2 &&& eventFlags) intf

instance (intf : BitVec 32) (write : BitVec 32 × BitVec 32) :
    Decidable (ClearsHandled intf write) :=
  inferInstanceAs (Decidable (Subset _ _))

/-- What is expected of all writes of a turn. -/
def FlagsHandled (state : IstState) (label : IstLabel) (next : IstState) : Prop :=
  match label with
  | .turn calls words => ∀ write ∈ next.intWrites.drop state.intWrites.length,
    ClearsHandled (state.seen calls words).intf write
  | .doSetMode _ => True

/-- All events that are signalled were in the status already. -/
def Meanwhile.Known (meanwhile : Meanwhile) (intf : BitVec 32) : Prop :=
  Subset (meanwhile.raised &&& eventFlags) intf

/-- A pass ends by disabling all interrupts, since it finds the interface in the bus-off state. -/
structure ShutsDown (calls : IstCalls) (status : Status) (state : IstState) : Prop where
  succeed : calls.HandlersSucceed status
  busOff : hasFlag status.trec canTrecTxbo ∨
    ¬ TrecFlagged status.trec ∧ state.canState = .busOff
  restart : state.restartMs = 0

/-- No new event comes between the read of the status and a write that clears flags. -/
structure Undisturbed (calls : IstCalls) (status : Status) (state : IstState) : Prop where
  clear : calls.clear = true → calls.beforeClear.Known status.intf
  serrif : calls.clear = true → hasFlag status.intf canIntSerrif → calls.serrif = true →
    calls.beforeSerrif.Known status.intf
  disable : ShutsDown calls status state → calls.disable = true →
    calls.beforeDisable.Known status.intf

/-- The turns that lose no event: those that handle no status, and the undisturbed ones. -/
def TurnUndisturbed (state : IstState) : IstLabel → Prop
  | .turn calls words => calls.read = true → pendingIrq (state.seen calls words).intf = true →
    Undisturbed calls (state.seen calls words) state
  | .doSetMode _ => True

/-- The events of a word are among those of another one. -/
def EventsWithin (word intf : BitVec 32) : Prop :=
  ∀ i, eventFlags.getLsbD i = true → word.getLsbD i = true → intf.getLsbD i = true

/-- A part of a word has no other events. -/
theorem eventsWithin_and (intf part : BitVec 32) : EventsWithin (intf &&& part) intf := by
  -- A bit of the part is a bit of the word.
  intro i _ set
  rw [BitVec.getLsbD_and, Bool.and_eq_true] at set
  exact set.1

/-- An event is a flag of the low half, and no level. -/
theorem eventFlags_bit {i : Nat} (event : eventFlags.getLsbD i = true) :
    i < 16 ∧ canIntEvents.getLsbD i = true := by
  -- The 32 bits are looked up one by one.
  have inside := BitVec.lt_of_getLsbD event
  have all : ∀ i < 32, eventFlags.getLsbD i = true → i < 16 ∧ canIntEvents.getLsbD i = true := by
    decide
  exact all i inside event

/-- An event is set when it was set or is signalled. -/
theorem elapse_event (meanwhile : Meanwhile) (canInt : BitVec 32) {i : Nat}
    (event : eventFlags.getLsbD i = true) :
    (elapse meanwhile canInt).getLsbD i =
      (canInt.getLsbD i || meanwhile.raised.getLsbD i) := by
  -- The bits that follow the levels are those outside of the events.
  obtain ⟨low, kept⟩ := eventFlags_bit event
  rw [elapse, BitVec.getLsbD_or, getLsbD_blend, BitVec.getLsbD_and, BitVec.getLsbD_not,
    BitVec.getLsbD_and, kept]
  simp

/-- An event stays set when a write puts a one to it. -/
theorem writeCanInt_event (canInt data : BitVec 32) {mask : BitVec 32} (some : mask ≠ 0) {i : Nat}
    (event : eventFlags.getLsbD i = true) (covers : (transferred mask).getLsbD i = true) :
    (writeCanInt true canInt data mask).2.getLsbD i =
      (canInt.getLsbD i && data.getLsbD i) := by
  -- In the low half a flag is only ever cleared by the host.
  obtain ⟨low, _⟩ := eventFlags_bit event
  rw [writeCanInt, cmdWriteMask, if_neg some, if_pos rfl, getLsbD_blend, covers, if_pos rfl,
    BitVec.getLsbD_or, BitVec.getLsbD_and, BitVec.getLsbD_and, BitVec.getLsbD_and,
    getLsbD_span_eq, getLsbD_span_eq]
  simp [low, show i < 32 by omega, show ¬ 16 ≤ i by omega]

/-- An inclusion of events, flag by flag. -/
theorem known_iff (meanwhile : Meanwhile) (intf : BitVec 32) :
    meanwhile.Known intf ↔ EventsWithin meanwhile.raised intf := by
  -- The bits of the mask are the events.
  rw [Meanwhile.Known, subset_iff]
  refine forall_congr' fun i => ?_
  rw [BitVec.getLsbD_and, Bool.and_eq_true]
  exact ⟨fun known event raised => known ⟨raised, event⟩,
    fun within both => within both.2 both.1⟩

/--
A write that keeps only known events loses none just when no new one comes before it.

Afterwards all events in the register are known.
-/
theorem write_handled_iff {intf canInt data mask : BitVec 32} (spi : Bool) (meanwhile : Meanwhile)
    (some : mask ≠ 0) (covers : ∀ i, eventFlags.getLsbD i = true →
      (transferred mask).getLsbD i = true)
    (within : EventsWithin canInt intf) (kept : EventsWithin data intf) :
    (ClearsHandled intf (elapse meanwhile canInt,
        (writeCanInt spi (elapse meanwhile canInt) data mask).2) ↔
      (spi = true → meanwhile.Known intf)) ∧
      (spi = true →
        EventsWithin (writeCanInt spi (elapse meanwhile canInt) data mask).2 intf) := by
  -- The write fails, or it leaves what it keeps of the events that are there by then.
  cases spi with
  | false =>
    -- A write that fails clears nothing.
    have same : (writeCanInt false (elapse meanwhile canInt) data mask).2 =
        elapse meanwhile canInt := by
      rw [writeCanInt, cmdWriteMask, if_neg some]
      rfl
    rw [same]
    refine ⟨iff_of_true ?_ (fun wrote => Bool.noConfusion wrote),
      fun wrote => Bool.noConfusion wrote⟩
    rw [ClearsHandled, subset_iff]
    intro i set
    simp at set
  | true =>
    have after (i : Nat) (event : eventFlags.getLsbD i = true) :
        (writeCanInt true (elapse meanwhile canInt) data mask).2.getLsbD i =
          ((canInt.getLsbD i || meanwhile.raised.getLsbD i) && data.getLsbD i) := by
      rw [writeCanInt_event _ _ some event (covers i event), elapse_event _ _ event]
    refine ⟨?_, fun _ i event set => ?_⟩
    · rw [known_iff, ClearsHandled, subset_iff]
      simp only [true_imp_iff]
      -- An event that is cleared was in the register before, or is new.
      refine forall_congr' fun i => ?_
      rw [BitVec.getLsbD_and, BitVec.getLsbD_and, BitVec.getLsbD_not, Bool.and_eq_true,
        Bool.and_eq_true]
      constructor
      · intro handled event raised
        by_cases one : data.getLsbD i = true
        · exact kept i event one
        · refine handled ⟨⟨?_, ?_⟩, event⟩
          · rw [elapse_event _ _ event, raised, Bool.or_true]
          · have inside := BitVec.lt_of_getLsbD event
            rw [after i event, (Bool.not_eq_true _).mp one, Bool.and_false,
              decide_eq_true inside]
            rfl
      · intro known both
        have set := both.1.1
        rw [elapse_event _ _ both.2, Bool.or_eq_true] at set
        rcases set with before | raised
        · exact within i both.2 before
        · exact known both.2 raised
    · rw [after i event, Bool.and_eq_true] at set
      exact kept i event set.2

/-- Of all handlers only the one for the system error writes to CAN_INT. -/
theorem runHandlers_flags (calls : IstCalls) (state : IstState) :
    (runHandlers (handlers calls) state).2.flags =
      if hasFlag state.status.intf canIntSerrif then
        (cmdWriteCanInt calls.serrif calls.beforeSerrif
          (state.status.intf &&& ~~~(canIntSerrif ||| canIntModif ||| canIntIvmif))
          (canIntSerrif ||| canIntModif ||| canIntIvmif) state).2.flags
      else state.flags := by
  -- All handlers but the first one keep the flags.
  have others : ∀ handler ∈ (handlers calls).tail, Keeps IstState.flags handler := by
    have returns (ret : Int) : Keeps IstState.flags (returning ret) := fun _ => rfl
    simp only [handlers, List.tail_cons, List.forall_mem_cons, List.not_mem_nil, false_imp_iff,
      implies_true, and_true]
    refine ⟨?_, ?_, ?_, ?_, ?_, ?_, ?_⟩ <;> apply whenAsked_keeps
    · exact returns calls.modif
    · exact returns calls.txatif
    · exact returns calls.tefif
    · exact (handleRxovif_keeps calls).part fun wide => wide.2.1
    · exact (handleEccif_keeps calls).part fun wide => wide.2.1
    · exact handleIvmif_keeps.part fun wide => wide.2.1
    · exact handleCerrif_keeps.part Prod.snd
  have serrif (state : IstState) : (handleSerrif calls state).2.flags =
      (cmdWriteCanInt calls.serrif calls.beforeSerrif
        (state.status.intf &&& ~~~(canIntSerrif ||| canIntModif ||| canIntIvmif))
        (canIntSerrif ||| canIntModif ||| canIntIvmif) state).2.flags := by
    unfold handleSerrif
    dsimp only
    split
    · rfl
    · split
      · rfl
      · split <;> rfl
  -- Whether the first handler fails or not, the flags are those that it leaves.
  have first : (runHandlers (handlers calls) state).2.flags =
      (whenAsked (fun status => hasFlag status.intf canIntSerrif) (handleSerrif calls)
        state).2.flags := by
    show (runHandlers (whenAsked _ (handleSerrif calls) :: (handlers calls).tail) state).2.flags = _
    rw [runHandlers_cons]
    split
    · rfl
    · exact runHandlers_keeps others _
  rw [first, whenAsked]
  split
  · exact serrif state
  · rfl

/-- The interface is shut down by a write to CAN_INT, and nothing else writes there. -/
theorem followState_flags (calls : IstCalls) (state : IstState) :
    (followState calls state).flags =
      if state.canState = .busOff ∧ state.restartMs = 0 then
        (cmdWriteCanInt calls.disable calls.beforeDisable 0 (-1) state).2.flags
      else state.flags := by
  -- In the bus-off state without a restart the function disables the interrupts.
  unfold followState
  by_cases off : state.canState = .busOff
  · by_cases restart : state.restartMs = 0
    · rw [if_pos off, if_pos restart, if_pos ⟨off, restart⟩]
      rfl
    · rw [if_pos off, if_neg restart, if_neg fun both => restart both.2]
  · have none : ¬ (state.canState = .busOff ∧ state.restartMs = 0) := fun both => off both.1
    rw [if_neg off, if_neg none]
    split <;> rfl

/-- The tests of CAN_TREC write nothing. -/
theorem handleTrec_flags (state : IstState) :
    (handleTrec state).flags = state.flags ∧ (handleTrec state).restartMs = state.restartMs :=
  ⟨handleTrec_keeps IstState.flags (fun _ _ _ _ => rfl) state,
    handleTrec_keeps IstState.restartMs (fun _ _ _ _ => rfl) state⟩

/-- What is expected of the writes that a step adds, which is that nothing new comes before them. -/
def AddsHandled (intf : BitVec 32) (undisturbed : Prop) (before after : IstState) : Prop :=
  ∃ writes, after.intWrites = before.intWrites ++ writes ∧
    ((∀ write ∈ writes, ClearsHandled intf write) ↔ undisturbed)

/-- A step that adds no write adds nothing that loses an event. -/
theorem AddsHandled.none {intf : BitVec 32} {undisturbed : Prop} {before after : IstState}
    (same : after.flags = before.flags) (holds : undisturbed) :
    AddsHandled intf undisturbed before after :=
  ⟨[], by rw [List.append_nil]; exact congrArg Prod.snd same,
    iff_of_true (fun _ member => absurd member List.not_mem_nil) holds⟩

/-- Steps in a row add their writes one after the other. -/
theorem AddsHandled.trans {intf : BitVec 32} {earlier later : Prop}
    {first second third : IstState} (begun : AddsHandled intf earlier first second)
    (ended : AddsHandled intf later second third) :
    AddsHandled intf (earlier ∧ later) first third := by
  -- What both steps write is put one behind the other.
  obtain ⟨writes, added, handled⟩ := begun
  obtain ⟨more, addedMore, handledMore⟩ := ended
  refine ⟨writes ++ more, by rw [addedMore, added, List.append_assoc], ?_⟩
  rw [List.forall_mem_append, handled, handledMore]

/-- The expectation of a step in other words. -/
theorem AddsHandled.congr {intf : BitVec 32} {undisturbed other : Prop} {before after : IstState}
    (adds : AddsHandled intf undisturbed before after) (same : undisturbed ↔ other) :
    AddsHandled intf other before after := by
  -- The writes are the same.
  obtain ⟨writes, added, handled⟩ := adds
  exact ⟨writes, added, handled.trans same⟩

/-- A write that is made of known events adds itself. -/
theorem cmdWriteCanInt_adds {intf data mask : BitVec 32} (spi : Bool) (meanwhile : Meanwhile)
    {state : IstState} (some : mask ≠ 0)
    (covers : ∀ i, eventFlags.getLsbD i = true → (transferred mask).getLsbD i = true)
    (within : EventsWithin state.canInt intf) (kept : EventsWithin data intf) :
    AddsHandled intf (spi = true → meanwhile.Known intf) state
        (cmdWriteCanInt spi meanwhile data mask state).2 ∧
      (spi = true →
        EventsWithin (cmdWriteCanInt spi meanwhile data mask state).2.canInt intf) := by
  -- The one write is handled when nothing is raised that is not known.
  obtain ⟨handled, after⟩ := write_handled_iff spi meanwhile some covers within kept
  refine ⟨⟨_, rfl, ?_⟩, after⟩
  rw [List.forall_mem_singleton]
  exact handled

/-- The masks of all three writes cover the events. -/
theorem covers_events :
    (∀ i, eventFlags.getLsbD i = true → (transferred clearIrq).getLsbD i = true) ∧
      (∀ i, eventFlags.getLsbD i = true →
        (transferred (canIntSerrif ||| canIntModif ||| canIntIvmif)).getLsbD i = true) ∧
      ∀ i, eventFlags.getLsbD i = true → (transferred (-1)).getLsbD i = true := by
  -- The first two masks end in the low half, so that two bytes are transferred.
  have first : transferred clearIrq = span 0 16 := by decide
  have second : transferred (canIntSerrif ||| canIntModif ||| canIntIvmif) = span 0 16 := by decide
  have third : transferred (-1) = span 0 32 := by decide
  rw [first, second, third]
  refine ⟨fun i event => ?_, fun i event => ?_, fun i event => ?_⟩ <;>
    have low := (eventFlags_bit event).1 <;> rw [getLsbD_span] <;> omega

/-- The handlers add the second write, where the status tells of a system error. -/
theorem runHandlers_adds (calls : IstCalls) {state : IstState} {intf : BitVec 32}
    (within : EventsWithin state.canInt intf) (same : state.status.intf = intf) :
    AddsHandled intf (hasFlag intf canIntSerrif = true → calls.serrif = true →
        calls.beforeSerrif.Known intf) state (runHandlers (handlers calls) state).2 ∧
      ((runHandlers (handlers calls) state).1 = 0 →
        EventsWithin (runHandlers (handlers calls) state).2.canInt intf) := by
  -- The write is made, or no handler touches the flags.
  have flags := runHandlers_flags calls state
  rw [same] at flags
  by_cases asked : hasFlag intf canIntSerrif = true
  · -- What is written is the status less the three flags.
    rw [if_pos asked] at flags
    obtain ⟨⟨writes, added, handled⟩, after⟩ := cmdWriteCanInt_adds calls.serrif
      calls.beforeSerrif (show canIntSerrif ||| canIntModif ||| canIntIvmif ≠ 0 by decide)
      covers_events.2.1 within (eventsWithin_and intf _)
    refine ⟨⟨writes, (congrArg Prod.snd flags).trans added, ?_⟩, fun done => ?_⟩
    · rw [handled]
      simp [asked]
    · -- Handlers that have all succeeded have made the write.
      have wrote := ((runHandlers_ret calls rfl).mp done).1 (by rw [same]; exact asked)
      have canInt := congrArg Prod.fst flags
      rw [show (runHandlers (handlers calls) state).2.canInt = _ from canInt]
      exact after wrote
  · rw [if_neg asked] at flags
    refine ⟨.none flags fun set => absurd set asked, fun _ => ?_⟩
    rw [show (runHandlers (handlers calls) state).2.canInt = _ from congrArg Prod.fst flags]
    exact within

/-- The end of a pass adds the last write, where it shuts the interface down. -/
theorem followState_adds (calls : IstCalls) {state : IstState} {intf : BitVec 32}
    (within : EventsWithin state.canInt intf) :
    AddsHandled intf (state.canState = .busOff ∧ state.restartMs = 0 → calls.disable = true →
      calls.beforeDisable.Known intf) state (followState calls state) := by
  -- The write is made, or the end of the pass leaves the flags alone.
  have flags := followState_flags calls state
  by_cases down : state.canState = .busOff ∧ state.restartMs = 0
  · -- The write puts zero everywhere, which keeps no event at all.
    rw [if_pos down] at flags
    have kept : EventsWithin 0 intf := fun i _ set => by simp at set
    obtain ⟨writes, added, handled⟩ := (cmdWriteCanInt_adds calls.disable calls.beforeDisable
      (show (-1 : BitVec 32) ≠ 0 by decide) covers_events.2.2 within kept).1
    refine ⟨writes, (congrArg Prod.snd flags).trans added, ?_⟩
    rw [handled]
    simp [down]
  · rw [if_neg down] at flags
    exact .none flags fun both => absurd both down

/-- The error counters ask for the bus-off state, or leave the interface in it. -/
theorem handleTrec_busOff (state : IstState) :
    (handleTrec state).newState = .busOff ↔
      hasFlag state.status.trec canTrecTxbo ∨
        ¬ TrecFlagged state.status.trec ∧ state.newState = .busOff := by
  -- The flag for the bus-off state is the first one that counts.
  have asked : stateOf state.status.trec = .busOff ↔ hasFlag state.status.trec canTrecTxbo := by
    unfold stateOf
    by_cases off : hasFlag state.status.trec canTrecTxbo = true
    · simp [off]
    · rw [if_neg off]
      refine iff_of_false ?_ off
      split
      · simp
      · split <;> simp
  have flagged : hasFlag state.status.trec canTrecTxbo = true → TrecFlagged state.status.trec :=
    fun off => Or.inr (Or.inr (Or.inr (Or.inr off)))
  -- A flagged counter decides, and otherwise the state stays.
  rcases handleTrec_newState state with raised | kept
  · rw [raised.1, asked]
    exact ⟨Or.inl, fun given => given.resolve_right fun both => both.1 raised.2⟩
  · rw [kept.1]
    exact ⟨fun off => Or.inr ⟨kept.2, off⟩,
      fun given => (given.resolve_left fun off => kept.2 (flagged off)).2⟩

/-- A pass that has just read its status loses no event exactly when it is undisturbed. -/
theorem handleStatus_adds (calls : IstCalls) {state : IstState}
    (fresh : state.canInt = state.status.intf) :
    AddsHandled state.status.intf (Undisturbed calls state.status state) state
      (handleStatus calls state).2 := by
  -- There are at most three writes: at the start, by a handler and at the end.
  have within : EventsWithin state.canInt state.status.intf := by
    intro i _ set
    rwa [← fresh]
  obtain ⟨firstAdds, firstWithin⟩ := cmdWriteCanInt_adds calls.clear calls.beforeClear
    (show clearIrq ≠ 0 by decide) covers_events.1 within (eventsWithin_and _ _)
  have firstRet := cmdWriteCanInt_ret calls.clear calls.beforeClear
    (state.status.intf &&& ~~~clearIrq) clearIrq (by decide) state
  have unfolded := handleStatus_eq calls state
  dsimp only at unfolded
  -- The state after the first write is named, and then the handlers and the end are followed.
  generalize firstEq : cmdWriteCanInt calls.clear calls.beforeClear
    (state.status.intf &&& ~~~clearIrq) clearIrq state = first at *
  have seen : (beginPass first.2).status = state.status := by
    rw [← firstEq]
    rfl
  have succeed := calls.handlersSucceed_iff seen
  by_cases wrote : first.1 = 0
  · have clear := firstRet.mp wrote
    rw [if_neg (not_not_intro wrote)] at unfolded
    have begun : AddsHandled state.status.intf (calls.clear = true →
        calls.beforeClear.Known state.status.intf) state (beginPass first.2) := firstAdds
    have beginWithin : EventsWithin (beginPass first.2).canInt state.status.intf :=
      firstWithin clear
    obtain ⟨handlersAdd, handlersWithin⟩ := runHandlers_adds calls beginWithin
      (congrArg Status.intf seen)
    have core := runHandlers_keeps (handlers_keep_core calls) (beginPass first.2)
    generalize runHandlers (handlers calls) (beginPass first.2) = run at *
    by_cases ran : run.1 = 0
    · rw [if_neg (not_not_intro ran)] at unfolded
      rw [unfolded]
      obtain ⟨entered, _, enteredFlags, enteredRestart⟩ := enterState_spec calls (handleTrec run.2)
      obtain ⟨trecFlags, trecRestart⟩ := handleTrec_flags run.2
      have same := enteredFlags.trans trecFlags
      have lastWithin : EventsWithin (enterState calls (handleTrec run.2)).canInt
          state.status.intf := by
        rw [show (enterState calls (handleTrec run.2)).canInt = run.2.canInt from
          congrArg Prod.fst same]
        exact handlersWithin ran
      have ended := followState_adds calls lastWithin
      refine (((begun.trans handlersAdd).trans (.none same trivial)).trans ended).congr ?_
      -- The state in which the pass ends is the one that the error counters ask for.
      have status : run.2.status = state.status := (congrArg Core.status core).trans seen
      have canState : run.2.newState = state.canState := by
        rw [show run.2.newState = _ from congrArg Core.newState core, ← firstEq]
        rfl
      have restart : (enterState calls (handleTrec run.2)).restartMs = state.restartMs := by
        rw [enteredRestart, trecRestart,
          show run.2.restartMs = _ from congrArg Core.restartMs core, ← firstEq]
        rfl
      have down : ShutsDown calls state.status state ↔
          (enterState calls (handleTrec run.2)).canState = .busOff ∧
            (enterState calls (handleTrec run.2)).restartMs = 0 := by
        rw [entered, handleTrec_busOff, status, canState, restart]
        exact ⟨fun down => ⟨down.busOff, down.restart⟩,
          fun both => ⟨succeed.mpr ⟨clear, ran⟩, both.1, both.2⟩⟩
      rw [← down]
      constructor
      · intro all
        exact ⟨all.1.1.1, fun _ => all.1.1.2, all.2⟩
      · intro undisturbed
        exact ⟨⟨⟨undisturbed.clear, undisturbed.serrif clear⟩, trivial⟩, undisturbed.disable⟩
    · -- A handler has failed, and the interface is not shut down.
      rw [if_pos ran] at unfolded
      rw [unfolded]
      refine (begun.trans handlersAdd).congr ⟨fun both => ?_, fun undisturbed => ?_⟩
      · refine ⟨both.1, fun _ => both.2, fun down => ?_⟩
        exact absurd (succeed.mp down.succeed).2 ran
      · exact ⟨undisturbed.clear, undisturbed.serrif clear⟩
  · -- The first write has failed, and the pass ends with it.
    have notClear : ¬ calls.clear = true := fun clear => wrote (firstRet.mpr clear)
    rw [if_pos wrote] at unfolded
    rw [unfolded]
    refine firstAdds.congr ⟨fun known => ?_, Undisturbed.clear⟩
    exact ⟨known, fun clear => absurd clear notClear,
      fun down => absurd down.succeed.clear notClear⟩

/-- A turn loses no event exactly when it is undisturbed, if it handles a status at all. -/
theorem istTurn_handled_iff (calls : IstCalls) (words : Status) (state : IstState) :
    FlagsHandled state (.turn calls words) (istTurn calls words state).2 ↔
      TurnUndisturbed state (.turn calls words) := by
  -- A turn without a status to handle writes nothing.
  have nothing {after : IstState} (same : after.intWrites = state.intWrites) :
      FlagsHandled state (.turn calls words) after := by
    intro write member
    rw [same, List.drop_length] at member
    exact absurd member List.not_mem_nil
  rw [istTurn_eq]
  by_cases read : calls.read = true
  · by_cases pending : pendingIrq (state.seen calls words).intf = true
    · rw [if_pos read, if_pos pending]
      -- The turn adds the writes of its pass to those before it.
      obtain ⟨writes, added, handled⟩ := handleStatus_adds calls
        (show (state.begun calls words).canInt = (state.begun calls words).status.intf from rfl)
      have before : (state.begun calls words).intWrites = state.intWrites := rfl
      rw [before] at added
      have passed : FlagsHandled state (.turn calls words)
          (handleStatus calls (state.begun calls words)).2 ↔
            Undisturbed calls (state.seen calls words) (state.begun calls words) := by
        rw [FlagsHandled, added, List.drop_left]
        exact handled
      have same : Undisturbed calls (state.seen calls words) (state.begun calls words) ↔
          Undisturbed calls (state.seen calls words) state :=
        ⟨fun calm => ⟨calm.clear, calm.serrif, fun down => calm.disable
            ⟨down.succeed, down.busOff, down.restart⟩⟩,
          fun calm => ⟨calm.clear, calm.serrif, fun down => calm.disable
            ⟨down.succeed, down.busOff, down.restart⟩⟩⟩
      rw [passed, same]
      exact ⟨fun calm _ _ => calm, fun calm => calm read pending⟩
    · rw [if_pos read, if_neg pending]
      exact iff_of_true (nothing rfl) fun _ shows => absurd shows pending
  · rw [if_neg read]
    exact iff_of_true (nothing rfl) fun reads => absurd reads read

/--
No event is lost over a run just when every turn that handles a status is undisturbed.

The run is any sequence of turns from any state on, with any events between their transfers.
-/
theorem flagsHandled_iff_undisturbed (start : IstState) (labels : List IstLabel) :
    (istMachine start).Along FlagsHandled start labels ↔
      (istMachine start).Along (fun state label _ => TurnUndisturbed state label) start labels := by
  -- The two are compared step by step.
  apply Machine.along_congr
  intro state label next stepped
  cases label with
  | turn calls words =>
    rw [istStep_turn stepped]
    exact istTurn_handled_iff calls words state
  | doSetMode mode => exact Iff.rfl

/-- A bus error is handled, and the mode changes right after the status was read. -/
def modeChangesMeanwhile : List IstLabel :=
  [.turn { IstCalls.signalled canIntCerrif with
      beforeClear := { levels := 0, raised := canIntModif } }
    { intf := 0, rxovif := 0, txatif := 0, trec := 0, bdiag1 := 0 }]

/-- The flag of the mode change is cleared, although no pass has seen it. -/
theorem modeChangesMeanwhile_not_handled :
    ¬ ∀ (restartMs : Nat) (labels : List IstLabel),
      (istMachine (.opened restartMs)).Along FlagsHandled (.opened restartMs) labels := by
  -- The first write of the run clears a flag that its status does not have.
  intro claim
  have handled := (claim 100 modeChangesMeanwhile _ rfl).1
  have first := handled _ List.mem_cons_self
  exact absurd first (by decide)

end OpenwrtMisc.Mcp25xxfd
