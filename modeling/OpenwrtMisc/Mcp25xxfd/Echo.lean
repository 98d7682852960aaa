import OpenwrtMisc.Mcp25xxfd.TxInvariant

/-! Each sent frame is echoed once, as long as its echo skb is stored before it is asked for. -/

namespace OpenwrtMisc.Mcp25xxfd

open BitMask

variable {echo : EchoTable Nat} {layout : TxLayout}

/-- The call of `mcp25xxfd_start_xmit` for this FIFO has not stored the echo skb yet. -/
def Xmit.Holds (xmit : Xmit) (fifo : Nat) : Prop :=
  match xmit with
  | .idle => False
  | .submitted held _ => held = fifo
  | .queued held _ => held = fifo

/-- The FIFO whose echo slot a step stores into. -/
def echoPut (state : TxState echo) : TxLabel → Option Nat
  | .putEchoSkb =>
    match state.xmit with
    | .queued fifo _ => some fifo
    | _ => none
  | _ => none

/-- The FIFO whose echo skb a step asks for, when it processes a TEF entry or an abort. -/
def echoGet (layout : TxLayout) (state : TxState echo) : TxLabel → Option Nat
  | .istProcess place => state.queuedTef[place]?
  | .istTxatif =>
    match state.ist with
    | .txatif fifo =>
      if fifo < layout.txFifoStart + layout.txFifos ∧ state.statusTxatif.getLsbD fifo = true then
        some fifo
      else none
    | _ => none
  | _ => none

/-- What is expected of the echo slots at a step, and of the echoes after it. -/
structure EchoSound (layout : TxLayout) (state : TxState echo) (label : TxLabel)
    (next : TxState echo) : Prop where
  /-- `mcp25xxfd_start_xmit` stores into an empty slot. -/
  stored : ∀ fifo, echoPut state label = some fifo → echo.slot state.slots fifo = none
  /-- A frame that is done with has its own skb in the slot of its FIFO. -/
  present : ∀ fifo, echoGet layout state label = some fifo →
    echo.slot state.slots fifo = some (state.sent fifo)
  /-- A frame is echoed exactly as often as it is done with, which is at most once. -/
  once : ∀ frame, next.echoed.count frame = next.finished.count frame ∧
    next.finished.count frame ≤ 1

/-- No step asks for an echo skb that `mcp25xxfd_start_xmit` is still to store. -/
def EchoStoredFirst (layout : TxLayout) (state : TxState echo) (label : TxLabel) : Prop :=
  ∀ fifo frame, echoGet layout state label = some fifo → state.xmit ≠ .queued fifo frame

/-- The number of places at which the frame of a FIFO waits for its echo. -/
def TxState.live (state : TxState echo) (fifo : Nat) : Nat :=
  state.xmit.marks fifo + state.spiQueue.count fifo + state.atChip fifo +
    state.queuedTef.count fifo

/-- The invariant of the echo slots. -/
structure EchoInv (layout : TxLayout) (state : TxState echo) : Prop where
  tx : TxInv layout state
  /-- The frame of a queued TEF object is marked as processed. -/
  queued : ∀ fifo, state.queuedTef.count fifo ≤ (state.txProcessedMask.getLsbD fifo).toNat
  /-- No TEF object is left over between two passes. -/
  cleared : (state.ist = .idle ∨ state.ist = .snapshot ∨ state.ist = .wake) → state.queuedTef = []
  /-- The frame that `mcp25xxfd_start_xmit` holds is the one last put into its FIFO, and waits. -/
  held : ∀ fifo, state.xmit.Holds fifo → 0 < state.live fifo
  heldFrame : ∀ fifo frame,
    state.xmit = .submitted fifo frame ∨ state.xmit = .queued fifo frame →
    state.sent fifo = frame
  /-- The slot of a waiting frame is filled as soon as `mcp25xxfd_start_xmit` is through. -/
  filled : ∀ fifo, 0 < state.live fifo → ¬ state.xmit.Holds fifo →
    echo.slot state.slots fifo = some (state.sent fifo)
  /-- All other slots are empty. -/
  empty : ∀ fifo, state.live fifo = 0 ∨ state.xmit.Holds fifo → echo.slot state.slots fifo = none
  /-- Waiting frames are distinct, were handed over, and are not done with. -/
  handed : ∀ fifo, 0 < state.live fifo →
    state.sent fifo < state.frames ∧ state.sent fifo ∉ state.finished
  distinct : ∀ first second, 0 < state.live first → 0 < state.live second →
    state.sent first = state.sent second → first = second
  past : ∀ frame ∈ state.finished, frame < state.frames
  once : ∀ frame, state.echoed.count frame = state.finished.count frame ∧
    state.finished.count frame ≤ 1

/-- The echo slots of an interface that was just opened are all empty. -/
theorem echoInv_opened (layout : TxLayout) :
    EchoInv layout (TxState.opened layout : TxState echo) where
  tx := txInv_opened layout
  queued fifo := by simp [TxState.opened]
  -- No FIFO is in use and no frame was submitted.
  cleared _ := rfl
  held fifo holds := holds.elim
  heldFrame fifo frame holds := by simp [TxState.opened] at holds
  filled fifo live := by simp [TxState.opened, TxState.live, TxState.atChip, Xmit.marks] at live
  empty fifo _ := echo.slot_fresh fifo
  handed fifo live := by simp [TxState.opened, TxState.live, TxState.atChip, Xmit.marks] at live
  distinct first _ live := by
    simp [TxState.opened, TxState.live, TxState.atChip, Xmit.marks] at live
  past frame member := by simp [TxState.opened] at member
  once frame := by simp [TxState.opened]

/-- A step that leaves every frame waiting as it was, and the slots alone, keeps the invariant. -/
theorem EchoInv.keep {state next : TxState echo} (inv : EchoInv layout state)
    (tx : TxInv layout next)
    (queued : ∀ fifo, next.queuedTef.count fifo ≤ (next.txProcessedMask.getLsbD fifo).toNat)
    (cleared : (next.ist = .idle ∨ next.ist = .snapshot ∨ next.ist = .wake) → next.queuedTef = [])
    (live : ∀ fifo, next.live fifo = state.live fifo) (xmit : next.xmit = state.xmit)
    (slots : next.slots = state.slots) (sent : next.sent = state.sent)
    (frames : next.frames = state.frames) (echoed : next.echoed = state.echoed)
    (finished : next.finished = state.finished) : EchoInv layout next where
  tx := tx
  queued := queued
  cleared := cleared
  -- Every field is about the frames that wait, or about parts that the step leaves alone.
  held fifo holds := by rw [live]; exact inv.held fifo (xmit ▸ holds)
  heldFrame fifo frame holds := by rw [sent]; exact inv.heldFrame fifo frame (xmit ▸ holds)
  filled fifo waits free := by
    rw [slots, sent]; exact inv.filled fifo (live fifo ▸ waits) (xmit ▸ free)
  empty fifo free := by rw [slots]; exact inv.empty fifo (by rwa [live, xmit] at free)
  handed fifo waits := by rw [sent, frames, finished]; exact inv.handed fifo (live fifo ▸ waits)
  distinct first second waitsFirst waitsSecond same := by
    rw [sent] at same
    exact inv.distinct first second (live first ▸ waitsFirst) (live second ▸ waitsSecond) same
  past frame member := by rw [frames]; exact inv.past frame (finished ▸ member)
  once frame := by rw [echoed, finished]; exact inv.once frame

/-- No frame waits at two places. -/
theorem EchoInv.live_le {state : TxState echo} (inv : EchoInv layout state) (fifo : Nat) :
    state.live fifo ≤ 1 := by
  -- A waiting frame is at one of the places of the batch, or its TEF object is queued.
  have bounded := inv.tx.places_le fifo
  have queued := inv.queued fifo
  simp only [TxState.places] at bounded
  simp only [TxState.live]
  omega

/-- Taking a new frame opens a FIFO at which nothing waited. -/
theorem EchoInv.submit {state next : TxState echo} (inv : EchoInv layout state) {fifo : Nat}
    (ready : state.xmit = .idle) (free : state.live fifo = 0) (tx : TxInv layout next)
    (queued : ∀ other, next.queuedTef.count other ≤ (next.txProcessedMask.getLsbD other).toNat)
    (cleared : (next.ist = .idle ∨ next.ist = .snapshot ∨ next.ist = .wake) → next.queuedTef = [])
    (live : ∀ other, next.live other = if other = fifo then 1 else state.live other)
    (xmit : next.xmit = .submitted fifo state.frames) (slots : next.slots = state.slots)
    (sent : next.sent = Function.update state.sent fifo state.frames)
    (frames : next.frames = state.frames + 1) (echoed : next.echoed = state.echoed)
    (finished : next.finished = state.finished) : EchoInv layout next := by
  -- The FIFO is the one whose frame starts to wait, and all others stay as they were.
  have holds : ∀ other, next.xmit.Holds other ↔ fifo = other := by
    intro other
    rw [xmit]
    rfl
  -- No frame was held before, so the one new holder is this FIFO.
  have idle : ∀ other, ¬ state.xmit.Holds other := by
    intro other held
    rw [ready] at held
    exact held
  refine
    { tx := tx
      queued := queued
      cleared := cleared
      held := ?_
      heldFrame := ?_
      filled := ?_
      empty := ?_
      handed := ?_
      distinct := ?_
      past := ?_
      once := fun frame => by rw [echoed, finished]; exact inv.once frame }
  · intro other held
    rw [live, if_pos ((holds other).mp held).symm]
    exact Nat.one_pos
  · intro other frame held
    rw [xmit] at held
    rcases held with same | same <;> cases same
    rw [sent]
    exact Function.update_self _ _ _
  · intro other waits held
    -- A waiting frame that is not held is an older one, whose slot is filled.
    have different : other ≠ fifo := fun same => held ((holds other).mpr same.symm)
    rw [live, if_neg different] at waits
    rw [slots, sent, Function.update_of_ne different]
    exact inv.filled other waits (idle other)
  · intro other unused
    rw [slots]
    -- The slot of the new frame is still empty, as nothing waited there.
    rw [live, holds] at unused
    by_cases same : other = fifo
    · rw [same]
      exact inv.empty fifo (Or.inl free)
    · rw [if_neg same] at unused
      rcases unused with none | held
      · exact inv.empty other (Or.inl none)
      · exact (same held.symm).elim
  · intro other waits
    rw [live] at waits
    rw [sent, frames, finished]
    by_cases same : other = fifo
    · rw [same, Function.update_self]
      exact ⟨Nat.lt_succ_self _, fun member => Nat.lt_irrefl _ (inv.past _ member)⟩
    · rw [if_neg same] at waits
      rw [Function.update_of_ne same]
      have handed := inv.handed other waits
      exact ⟨Nat.lt_succ_of_lt handed.1, handed.2⟩
  · intro first second waitsFirst waitsSecond equal
    rw [live] at waitsFirst waitsSecond
    rw [sent] at equal
    -- The number of the new frame is larger than that of any frame before it.
    by_cases sameFirst : first = fifo <;> by_cases sameSecond : second = fifo
    · exact sameFirst.trans sameSecond.symm
    · rw [if_neg sameSecond] at waitsSecond
      have before := (inv.handed second waitsSecond).1
      rw [sameFirst, Function.update_self, Function.update_of_ne sameSecond] at equal
      omega
    · rw [if_neg sameFirst] at waitsFirst
      have before := (inv.handed first waitsFirst).1
      rw [sameSecond, Function.update_self, Function.update_of_ne sameFirst] at equal
      omega
    · rw [if_neg sameFirst] at waitsFirst
      rw [if_neg sameSecond] at waitsSecond
      rw [Function.update_of_ne sameFirst, Function.update_of_ne sameSecond] at equal
      exact inv.distinct first second waitsFirst waitsSecond equal
  · intro frame member
    rw [finished] at member
    rw [frames]
    exact Nat.lt_succ_of_lt (inv.past frame member)

/-- The FIFO that `mcp25xxfd_start_xmit` decides on has no frame waiting. -/
theorem submitFifo_echoInv {state : TxState echo} (inv : EchoInv layout state)
    (ready : state.xmit = .idle) {count : Nat} (room : count < layout.txFifos)
    (mask : state.txSubmittedMask = span layout.txFifoStart count)
    (awake : state.queueStopped = false) :
    EchoInv layout (submitFifo layout (layout.txFifoStart + count) state) := by
  have tx := submitFifo_inv inv.tx ready room mask awake
  generalize newFifo : layout.txFifoStart + count = fifo at tx ⊢
  -- A FIFO that is not submitted has its frame nowhere.
  have free : state.live fifo = 0 := by
    have placed := inv.tx.placed fifo
    have queued := inv.queued fifo
    have unset : state.txSubmittedMask.getLsbD fifo = false := by
      rw [mask, ← Bool.not_eq_true, getLsbD_span]
      omega
    simp only [TxState.places, unset, Bool.toNat_false] at placed
    simp only [TxState.live]
    omega
  -- Before the step nothing was marked without being queued.
  have marks : ∀ other, state.xmit.marks other = 0 := by
    intro other
    rw [ready]
    rfl
  have live : ∀ other, (submitFifo layout fifo state).live other =
      if other = fifo then 1 else state.live other := by
    intro other
    have waiting := marks other
    have placed : (submitFifo layout fifo state).live other =
        (if fifo = other then 1 else 0) + state.spiQueue.count other + state.atChip other +
          state.queuedTef.count other := by
      cases last : isLastTxfifo layout fifo <;>
        simp only [submitFifo, stopQueue, last, TxState.live, TxState.atChip, Xmit.marks] <;> rfl
    rw [placed]
    by_cases same : other = fifo
    · subst same
      simp only [TxState.live] at free
      simp only [if_true]
      omega
    · simp only [if_neg same, if_neg (Ne.symm same), TxState.live]
      omega
  -- The queue may be stopped first, which touches none of the other fields.
  cases last : isLastTxfifo layout fifo <;>
    exact inv.submit ready free tx
      (by simpa [submitFifo, stopQueue, last] using inv.queued)
      (by simpa [submitFifo, stopQueue, last] using inv.cleared) live
      (by simp [submitFifo, stopQueue, last]) (by simp [submitFifo, stopQueue, last])
      (by simp [submitFifo, stopQueue, last]) (by simp [submitFifo, stopQueue, last])
      (by simp [submitFifo, stopQueue, last]) (by simp [submitFifo, stopQueue, last])

/-- Queueing the message leaves the frame waiting, now in the SPI queue. -/
theorem spiAsync_echoInv {state : TxState echo} (inv : EchoInv layout state) {fifo frame : Nat}
    (at_ : state.xmit = .submitted fifo frame) :
    EchoInv layout
      { state with xmit := .queued fifo frame, spiQueue := state.spiQueue ++ [fifo] } := by
  -- The mark of the call becomes the message in the queue.
  have live : ∀ other, TxState.live
      { state with xmit := .queued fifo frame, spiQueue := state.spiQueue ++ [fifo] } other =
        state.live other := by
    intro other
    simp only [TxState.live, TxState.atChip, at_, Xmit.marks, List.count_append,
      List.count_singleton, beq_iff_eq]
    omega
  have holds : ∀ other, (Xmit.queued fifo frame).Holds other ↔ state.xmit.Holds other := by
    intro other
    rw [at_]
    rfl
  exact
    { tx := spiAsync_inv inv.tx at_
      queued := inv.queued
      cleared := inv.cleared
      held := fun other held => by rw [live]; exact inv.held other ((holds other).mp held)
      heldFrame := fun other heldFrame same => by
        rcases same with same | same <;> cases same
        exact inv.heldFrame fifo frame (Or.inl at_)
      filled := fun other waits held =>
        inv.filled other (live other ▸ waits) (fun same => held ((holds other).mpr same))
      empty := fun other unused => inv.empty other (by rwa [live, holds] at unused)
      handed := fun other waits => inv.handed other (live other ▸ waits)
      distinct := fun first second waitsFirst waitsSecond =>
        inv.distinct first second (live first ▸ waitsFirst) (live second ▸ waitsSecond)
      past := inv.past
      once := inv.once }

/-- Storing the echo skb fills the slot of the frame that was just handed over. -/
theorem putEchoSkb_echoInv {state : TxState echo} (inv : EchoInv layout state) {fifo frame : Nat}
    (at_ : state.xmit = .queued fifo frame) :
    EchoInv layout
      { state with xmit := .idle, slots := echo.canPutEchoSkb frame fifo state.slots } := by
  -- The frame stays where it waits, and only its slot changes.
  have holds : ∀ other, state.xmit.Holds other ↔ fifo = other := by
    intro other
    rw [at_]
    rfl
  -- The slot was empty while the frame was held, so the store succeeds.
  have vacant := inv.empty fifo (Or.inr ((holds fifo).mpr rfl))
  have slot := fun other => echo.slot_put frame fifo state.slots other vacant
  have live : ∀ other, TxState.live
      { state with xmit := .idle, slots := echo.canPutEchoSkb frame fifo state.slots } other =
        state.live other := by
    intro other
    simp only [TxState.live, TxState.atChip, at_, Xmit.marks]
  exact
    { tx := putEchoSkb_inv inv.tx at_ _
      queued := inv.queued
      cleared := inv.cleared
      held := fun other held => held.elim
      heldFrame := fun other heldFrame same => by rcases same with same | same <;> cases same
      filled := fun other waits _ => by
        rw [live] at waits
        rw [slot]
        by_cases same : other = fifo
        · rw [if_pos same, same, inv.heldFrame fifo frame (Or.inr at_)]
        · rw [if_neg same]
          exact inv.filled other waits fun held => same ((holds other).mp held).symm
      empty := fun other unused => by
        rw [live] at unused
        rcases unused with none | held
        · have different : other ≠ fifo := by
            intro same
            subst same
            have := inv.held other ((holds other).mpr rfl)
            omega
          rw [slot, if_neg different]
          exact inv.empty other (Or.inl none)
        · exact held.elim
      handed := fun other waits => inv.handed other (live other ▸ waits)
      distinct := fun first second waitsFirst waitsSecond =>
        inv.distinct first second (live first ▸ waitsFirst) (live second ▸ waitsSecond)
      past := inv.past
      once := inv.once }

/-- Taking the echo skb of a waiting frame back ends its wait. -/
theorem EchoInv.finish {state next : TxState echo} (inv : EchoInv layout state) {fifo : Nat}
    (waiting : 0 < state.live fifo) (stored : ¬ state.xmit.Holds fifo) (tx : TxInv layout next)
    (queued : ∀ other, next.queuedTef.count other ≤ (next.txProcessedMask.getLsbD other).toNat)
    (cleared : (next.ist = .idle ∨ next.ist = .snapshot ∨ next.ist = .wake) → next.queuedTef = [])
    (live : ∀ other, next.live other = if other = fifo then 0 else state.live other)
    (xmit : next.xmit = state.xmit) (slots : next.slots = echo.canGetEchoSkb fifo state.slots)
    (sent : next.sent = state.sent) (frames : next.frames = state.frames)
    (echoed : next.echoed = (echo.slot state.slots fifo).toList ++ state.echoed)
    (finished : next.finished = state.sent fifo :: state.finished) : EchoInv layout next := by
  -- The slot held the frame, so taking it echoes this frame and no other.
  have present := inv.filled fifo waiting stored
  have handedHere := inv.handed fifo waiting
  -- A frame that still waits is at another FIFO.
  have remains : ∀ other, 0 < next.live other → other ≠ fifo ∧ 0 < state.live other := by
    intro other waits
    rw [live] at waits
    by_cases same : other = fifo
    · simp [same] at waits
    · exact ⟨same, by simpa [same] using waits⟩
  refine
    { tx := tx
      queued := queued
      cleared := cleared
      held := ?_
      heldFrame := fun other frame holds => by
        rw [sent]; exact inv.heldFrame other frame (xmit ▸ holds)
      filled := ?_
      empty := ?_
      handed := ?_
      distinct := ?_
      past := ?_
      once := ?_ }
  · intro other holds
    rw [xmit] at holds
    have different : other ≠ fifo := by rintro rfl; exact stored holds
    rw [live, if_neg different]
    exact inv.held other holds
  · intro other waits free
    obtain ⟨different, waited⟩ := remains other waits
    rw [slots, sent, echo.slot_get, if_neg different]
    exact inv.filled other waited (xmit ▸ free)
  · intro other unused
    rw [slots, echo.slot_get]
    by_cases same : other = fifo
    · rw [if_pos same]
    · rw [if_neg same]
      rw [live, if_neg same, xmit] at unused
      exact inv.empty other unused
  · intro other waits
    obtain ⟨different, waited⟩ := remains other waits
    have handed := inv.handed other waited
    rw [sent, frames, finished]
    -- A frame that still waits is not the one that was just finished, as frames are distinct.
    refine ⟨handed.1, fun member => ?_⟩
    rcases List.mem_cons.mp member with same | earlier
    · exact different (inv.distinct other fifo waited waiting same)
    · exact handed.2 earlier
  · intro first second waitsFirst waitsSecond equal
    rw [sent] at equal
    exact inv.distinct first second (remains first waitsFirst).2
      (remains second waitsSecond).2 equal
  · intro frame member
    rw [finished] at member
    rw [frames]
    rcases List.mem_cons.mp member with same | earlier
    · rw [same]; exact handedHere.1
    · exact inv.past frame earlier
  · intro frame
    have before := inv.once frame
    rw [echoed, finished, present]
    simp only [Option.toList_some, List.singleton_append, List.count_cons, beq_iff_eq]
    -- The finished frame was not finished before, so it counts once from now on.
    by_cases same : state.sent fifo = frame
    · have none := List.count_eq_zero_of_not_mem handedHere.2
      rw [same] at none
      simp only [same, if_true]
      omega
    · simp only [same, if_false]
      omega

/-- A frame waits for its echo unless it was never submitted or its skb was taken already. -/
theorem TxInv.live_balance {state : TxState echo} (inv : TxInv layout state) (fifo : Nat) :
    state.live fifo + (state.txProcessedMask.getLsbD fifo).toNat =
      (state.txSubmittedMask.getLsbD fifo).toNat + state.queuedTef.count fifo := by
  -- Both sides are counted by the places of the batch.
  have placed := inv.placed fifo
  simp only [TxState.places] at placed
  simp only [TxState.live]
  omega

/-- A step keeps all frames waiting when it marks as processed just what it queues. -/
theorem EchoInv.keep_masks {state next : TxState echo} (inv : EchoInv layout state)
    (tx : TxInv layout next) (submitted : next.txSubmittedMask = state.txSubmittedMask)
    (balance : ∀ fifo, next.queuedTef.count fifo + (state.txProcessedMask.getLsbD fifo).toNat =
      state.queuedTef.count fifo + (next.txProcessedMask.getLsbD fifo).toNat)
    (cleared : (next.ist = .idle ∨ next.ist = .snapshot ∨ next.ist = .wake) → next.queuedTef = [])
    (xmit : next.xmit = state.xmit) (slots : next.slots = state.slots)
    (sent : next.sent = state.sent) (frames : next.frames = state.frames)
    (echoed : next.echoed = state.echoed) (finished : next.finished = state.finished) :
    EchoInv layout next := by
  -- What a step marks as processed is in the queue instead, so the same frames wait.
  refine inv.keep tx ?_ cleared ?_ xmit slots sent frames echoed finished
  · intro fifo
    have before := inv.queued fifo
    have moved := balance fifo
    omega
  · intro fifo
    have before := inv.tx.live_balance fifo
    have after := tx.live_balance fifo
    have moved := balance fifo
    rw [submitted] at after
    omega

/-- A step that touches neither the masks nor the queued TEF objects keeps all frames waiting. -/
theorem EchoInv.keep_quiet {state next : TxState echo} (inv : EchoInv layout state)
    (tx : TxInv layout next) (submitted : next.txSubmittedMask = state.txSubmittedMask)
    (processed : next.txProcessedMask = state.txProcessedMask)
    (queued : next.queuedTef = state.queuedTef)
    (cleared : (next.ist = .idle ∨ next.ist = .snapshot ∨ next.ist = .wake) → next.queuedTef = [])
    (xmit : next.xmit = state.xmit) (slots : next.slots = state.slots)
    (sent : next.sent = state.sent) (frames : next.frames = state.frames)
    (echoed : next.echoed = state.echoed) (finished : next.finished = state.finished) :
    EchoInv layout next :=
  inv.keep_masks tx submitted (fun fifo => by rw [processed, queued]) cleared xmit slots sent
    frames echoed finished

/-- A frame at the controller that is popped from the TEF or aborted was not processed before. -/
theorem TxInv.not_processed {state : TxState echo} (inv : TxInv layout state) {fifo : Nat}
    (found : 0 < state.atChip fifo) : state.txProcessedMask.getLsbD fifo = false := by
  -- A processed frame would be at two places.
  have bounded := inv.places_le fifo
  rw [TxState.places] at bounded
  exact Bool.toNat_eq_zero.mp (by omega)

/-- The pop of a TEF entry queues the object of a frame and leaves that frame waiting. -/
theorem handleTefifSingle_echoInv {state : TxState echo} (inv : EchoInv layout state) (stale : Nat)
    (position : Ist) (moving : ¬ (position = .idle ∨ position = .snapshot ∨ position = .wake))
    (tx : TxInv layout { handleTefifSingle layout stale state with ist := position })
    (entry : 0 < state.chipTef.length) :
    EchoInv layout { handleTefifSingle layout stale state with ist := position } := by
  obtain ⟨fifo, rest, tef⟩ := List.exists_cons_of_length_pos entry
  -- The entry stands for a frame that the controller has and the driver has not processed.
  have atChip : 0 < state.atChip fifo := by
    simp only [TxState.atChip, tef, List.count_cons_self]
    omega
  have unprocessed := inv.tx.not_processed atChip
  have range := inv.tx.inRange fifo (by simp only [TxState.places]; omega)
  have inMask := layout.inMask
  rw [handleTefifSingle_eq inv.tx.address stale tef] at tx ⊢
  refine inv.keep_masks tx rfl ?_ (fun quiet => (moving quiet).elim) rfl rfl rfl rfl rfl rfl
  intro other
  simp only [List.count_append, List.count_singleton, beq_iff_eq]
  rw [toNat_getLsbD_set (by omega) unprocessed other]
  simp only [@eq_comm _ fifo other]
  omega

/-- Taking an element out of a list lowers its own count only. -/
theorem count_eraseIdx {list : List Nat} {place fifo : Nat} (found : list[place]? = some fifo)
    (other : Nat) :
    (list.eraseIdx place).count other + (if other = fifo then 1 else 0) = list.count other := by
  -- The induction walks down the list to the place.
  induction list generalizing place with
  | nil => simp at found
  | cons head tail ih =>
    cases place with
    | zero =>
      simp only [List.getElem?_cons_zero, Option.some.injEq] at found
      subst found
      simp only [List.eraseIdx_cons_zero, List.count_cons, beq_iff_eq, eq_comm (a := other)]
    | succ place =>
      have step := ih (by simpa using found)
      simp only [List.eraseIdx_cons_succ, List.count_cons]
      omega

/-- A step ends the wait of the one frame whose object it takes or whose abort it processes. -/
theorem EchoInv.finish_masks {state next : TxState echo} (inv : EchoInv layout state) {fifo : Nat}
    (waiting : 0 < state.live fifo) (stored : ¬ state.xmit.Holds fifo) (tx : TxInv layout next)
    (submitted : next.txSubmittedMask = state.txSubmittedMask)
    (balance : ∀ other, next.queuedTef.count other + (state.txProcessedMask.getLsbD other).toNat +
        (if other = fifo then 1 else 0) =
      state.queuedTef.count other + (next.txProcessedMask.getLsbD other).toNat)
    (cleared : (next.ist = .idle ∨ next.ist = .snapshot ∨ next.ist = .wake) → next.queuedTef = [])
    (xmit : next.xmit = state.xmit) (slots : next.slots = echo.canGetEchoSkb fifo state.slots)
    (sent : next.sent = state.sent) (frames : next.frames = state.frames)
    (echoed : next.echoed = (echo.slot state.slots fifo).toList ++ state.echoed)
    (finished : next.finished = state.sent fifo :: state.finished) : EchoInv layout next := by
  -- The frame that is done leaves the queue or the marks, and no other frame does.
  refine inv.finish waiting stored tx ?_ cleared ?_ xmit slots sent frames echoed finished
  · intro other
    have before := inv.queued other
    have moved := balance other
    omega
  · intro other
    have before := inv.tx.live_balance other
    have after := tx.live_balance other
    have moved := balance other
    have bounded := inv.live_le other
    rw [submitted] at after
    by_cases same : other = fifo
    · rw [if_pos same] at moved ⊢
      omega
    · rw [if_neg same] at moved ⊢
      omega

/-- The echo skb of a queued TEF object is taken from the slot of its frame. -/
theorem istProcess_echoInv {state : TxState echo} (inv : EchoInv layout state) {place fifo : Nat}
    (at_ : state.ist = .process) (found : state.queuedTef[place]? = some fifo)
    (stored : ¬ state.xmit.Holds fifo)
    (tx : TxInv layout
      { getEchoSkb fifo state with queuedTef := state.queuedTef.eraseIdx place }) :
    EchoInv layout { getEchoSkb fifo state with queuedTef := state.queuedTef.eraseIdx place } := by
  -- The object is in the list, so its frame was still waiting.
  have counts := count_eraseIdx found
  have waiting : 0 < state.live fifo := by
    have removed := counts fifo
    rw [if_pos rfl] at removed
    simp only [TxState.live]
    omega
  refine inv.finish_masks waiting stored tx rfl ?_ ?_ rfl rfl rfl rfl rfl rfl
  · intro other
    have removed := counts other
    simp only [getEchoSkb]
    omega
  · intro quiet
    simp [getEchoSkb, at_] at quiet

/-- The echo skb of an aborted frame is taken from its slot as well. -/
theorem istTxatif_echoInv {state : TxState echo} (inv : EchoInv layout state) {fifo : Nat}
    (at_ : state.ist = .txatif fifo) (aborted : state.statusTxatif.getLsbD fifo = true)
    (quiet : state.spiCompleting = none) (stored : ¬ state.xmit.Holds fifo) :
    EchoInv layout { handleTxatifFifo layout fifo state with ist := .txatif (fifo + 1) } := by
  have tx := istTxatif_inv inv.tx at_ aborted quiet
  -- The flag of the abort is still raised, so the frame waits until this step.
  have known := inv.tx.ist
  simp only [IstInv, at_] at known
  have atChip : 0 < state.atChip fifo := by
    have raised := known.1 fifo (Nat.le_refl _) aborted
    simp only [TxState.atChip, raised, Bool.toNat_true]
    omega
  have unprocessed := inv.tx.not_processed atChip
  have range := inv.tx.inRange fifo (by simp only [TxState.places]; omega)
  have inMask := layout.inMask
  have waiting : 0 < state.live fifo := by
    simp only [TxState.live]
    omega
  refine inv.finish_masks waiting stored tx rfl ?_ (by simp) rfl rfl rfl rfl rfl rfl
  intro other
  simp only [handleTxatifFifo, markTxProcessed, getEchoSkb]
  rw [toNat_getLsbD_set (by omega) unprocessed other]
  omega

/-- Waking the queue finds every frame of the batch echoed. -/
theorem wakeQueue_echoInv {state : TxState echo} (inv : EchoInv layout state)
    (at_ : state.ist = .wake) (done : state.txProcessedMask = layout.txFifoMask) :
    EchoInv layout { wakeQueue state with ist := .idle } := by
  -- All frames of the batch were processed and no object is queued, so no FIFO has a frame that
  -- waits.
  have tx := wakeQueue_inv inv.tx done
  have nothing := inv.cleared (Or.inr (Or.inr at_))
  have before : ∀ fifo, state.live fifo = 0 := by
    intro fifo
    have balance := inv.tx.live_balance fifo
    obtain ⟨count, bounded, mask⟩ := inv.tx.submitted
    have inMask := layout.inMask
    rw [nothing, List.count_nil] at balance
    cases set : state.txSubmittedMask.getLsbD fifo with
    | false => simp only [set, Bool.toNat_false] at balance; omega
    | true =>
      -- A submitted FIFO is one of the transmit FIFOs, all of which are processed.
      have processed : state.txProcessedMask.getLsbD fifo = true := by
        rw [done, getLsbD_txFifoMask]
        rw [mask, getLsbD_span] at set
        omega
      simp only [set, processed, Bool.toNat_true] at balance
      omega
  -- With all masks clear and no object queued, nothing waits after the wake either.
  have after : ∀ fifo, TxState.live { wakeQueue state with ist := .idle } fifo = 0 := by
    intro fifo
    have balance := tx.live_balance fifo
    simp only [wakeQueue, nothing, List.count_nil] at balance ⊢
    omega
  refine inv.keep tx ?_ (fun _ => nothing) ?_ rfl rfl rfl rfl rfl rfl
  · intro fifo
    simp [wakeQueue, nothing]
  · intro fifo
    rw [before, after]

/-- A frame that a step asks the echo skb of still waits for it. -/
theorem EchoInv.asked {state next : TxState echo} {label : TxLabel} (inv : EchoInv layout state)
    (stepped : txStep layout layout.txFifoMask state label = some next) {fifo : Nat}
    (asks : echoGet layout state label = some fifo) :
    0 < state.live fifo ∧ state.xmit.marks fifo = 0 := by
  have bounded := inv.live_le fifo
  -- Only the two steps below ask for an echo skb.
  cases label with
  | istProcess place =>
    have member := List.count_pos_iff.mpr (List.mem_of_getElem? asks)
    simp only [TxState.live] at bounded ⊢
    omega
  | istTxatif =>
    have known := inv.tx.ist
    simp only [echoGet] at asks
    split at asks
    · rename_i next at_
      simp only [IstInv, at_] at known
      split at asks
      · rename_i raised
        cases asks
        have aborted := known.1 fifo (Nat.le_refl _) raised.2
        simp only [TxState.live, TxState.atChip, aborted, Bool.toNat_true] at bounded ⊢
        omega
      · cases asks
    · cases asks
  | _ => cases asks

/-- On a step that meets the condition, the frame asked for is not in the hands of xmit. -/
theorem EchoInv.not_held {state next : TxState echo} {label : TxLabel} (inv : EchoInv layout state)
    (stepped : txStep layout layout.txFifoMask state label = some next)
    (met : EchoStoredFirst layout state label) {fifo : Nat}
    (asks : echoGet layout state label = some fifo) : ¬ state.xmit.Holds fifo := by
  intro holds
  have unmarked := (inv.asked stepped asks).2
  -- Between the mark and the message the frame is not in the controller, so it is not asked for.
  cases at_ : state.xmit with
  | idle => rw [at_] at holds; exact holds
  | submitted held frame =>
    rw [at_] at holds unmarked
    have same : held = fifo := holds
    simp [Xmit.marks, same] at unmarked
  | queued held frame =>
    rw [at_] at holds
    have same : held = fifo := holds
    exact met fifo frame asks (same ▸ at_)

/-- Every step that meets the condition keeps the invariant of the echo slots. -/
theorem txStep_echoInv {state next : TxState echo} (label : TxLabel) (inv : EchoInv layout state)
    (met : EchoStoredFirst layout state label)
    (stepped : txStep layout layout.txFifoMask state label = some next) : EchoInv layout next := by
  have tx := txStep_inv label inv.tx stepped
  -- The condition rules out the one window in which the slot is not filled yet.
  have free : ∀ fifo, echoGet layout state label = some fifo → ¬ state.xmit.Holds fifo :=
    fun fifo asks => inv.not_held stepped met asks
  cases txMove_of_txStep stepped with
  | startXmitBusy awake full => exact inv
  | startXmit idle awake allocated =>
    obtain ⟨count, room, mask, next⟩ := inv.tx.allocateFifo awake
    rw [allocated, Option.some.injEq] at next
    rw [next]
    exact submitFifo_echoInv inv idle room mask awake
  | spiAsync at_ => exact spiAsync_echoInv inv at_
  | putEchoSkb at_ => exact putEchoSkb_echoInv inv at_
  | spiExecute quiet queue =>
    exact inv.keep_quiet tx rfl rfl rfl inv.cleared rfl rfl rfl rfl rfl rfl
  | markTxPending completing =>
    exact inv.keep_quiet tx rfl rfl rfl inv.cleared rfl rfl rfl rfl rfl rfl
  | chipSent requested =>
    exact inv.keep_quiet tx rfl rfl rfl inv.cleared rfl rfl rfl rfl rfl rfl
  | chipAborted requested =>
    exact inv.keep_quiet tx rfl rfl rfl inv.cleared rfl rfl rfl rfl rfl rfl
  | istSnapshot at_ =>
    have nothing := inv.cleared (Or.inl at_)
    exact inv.keep_quiet tx rfl rfl rfl (fun _ => nothing) rfl rfl rfl rfl rfl rfl
  | istStatus at_ quiet work =>
    -- The list that is cleared was empty, so no frame stops waiting.
    have nothing := inv.cleared (Or.inr (Or.inl at_))
    exact inv.keep_quiet tx rfl rfl nothing.symm (fun _ => rfl) rfl rfl rfl rfl rfl rfl
  | istStatusIdle at_ quiet none =>
    have nothing := inv.cleared (Or.inr (Or.inl at_))
    exact inv.keep_quiet tx rfl rfl rfl (fun _ => nothing) rfl rfl rfl rfl rfl rfl
  | @istTxatif fifo at_ inside aborted quiet =>
    have asks : echoGet layout state .istTxatif = some fifo := by
      simp [echoGet, at_, inside, aborted]
    exact istTxatif_echoInv inv at_ aborted quiet (free fifo asks)
  | istTxatifPassed at_ inside passed =>
    exact inv.keep_quiet tx rfl rfl rfl (by simp) rfl rfl rfl rfl rfl rfl
  | istTxatifEnded at_ past =>
    exact inv.keep_quiet tx rfl rfl rfl (by simp) rfl rfl rfl rfl rfl rfl
  | istTefif at_ =>
    refine inv.keep_quiet tx rfl rfl rfl ?_ rfl rfl rfl rfl rfl rfl
    intro quiet
    by_cases tefif : state.statusTefif = true
    · simp only [tefif, if_true, handleTefif] at quiet
      split at quiet <;> simp at quiet
    · simp [tefif] at quiet
  | istTefCounted at_ => exact inv.keep_quiet tx rfl rfl rfl (by simp) rfl rfl rfl rfl rfl rfl
  | @istTefCount stale left at_ quiet =>
    -- An entry that is popped queues its frame, which goes on waiting.
    have known := inv.tx.ist
    simp only [IstInv, at_] at known
    exact handleTefifSingle_echoInv inv stale _ (by simp) tx (by omega)
  | istTefEmpty at_ empty =>
    exact inv.keep_quiet tx rfl rfl rfl (by simp) rfl rfl rfl rfl rfl rfl
  | istTefCheck at_ nonempty =>
    exact inv.keep_quiet tx rfl rfl rfl (by simp) rfl rfl rfl rfl rfl rfl
  | @istTefSingle stale at_ quiet =>
    have known := inv.tx.ist
    simp only [IstInv, at_] at known
    exact handleTefifSingle_echoInv inv stale _ (by simp) tx known
  | istProcess at_ found => exact istProcess_echoInv inv at_ found (free _ found) tx
  | istProcessed at_ empty =>
    exact inv.keep_quiet tx rfl rfl rfl (fun _ => empty) rfl rfl rfl rfl rfl rfl
  | istWake at_ done => exact wakeQueue_echoInv inv at_ done
  | istAsleep at_ waiting =>
    have nothing := inv.cleared (Or.inr (Or.inr at_))
    exact inv.keep_quiet tx rfl rfl rfl (fun _ => nothing) rfl rfl rfl rfl rfl rfl

/-- A step that meets the condition finds the echo slots as expected. -/
theorem EchoInv.sound {state next : TxState echo} {label : TxLabel} (inv : EchoInv layout state)
    (met : EchoStoredFirst layout state label)
    (stepped : txStep layout layout.txFifoMask state label = some next)
    (after : EchoInv layout next) : EchoSound layout state label next := by
  -- The cases are the steps, of which one stores an echo skb and one asks for it.
  constructor
  · intro fifo puts
    cases label with
    | putEchoSkb =>
      simp only [echoPut] at puts
      split at puts
      · rename_i held frame at_
        cases puts
        exact inv.empty fifo (Or.inr (by rw [at_]; rfl))
      · cases puts
    | _ => cases puts
  · -- Whoever asks finds the frame, since the condition has it stored before.
    intro fifo asks
    exact inv.filled fifo (inv.asked stepped asks).1 (inv.not_held stepped met asks)
  · exact after.once

/-- A step that asks for the echo skb between the queueing and the store does not find it. -/
theorem EchoInv.storedFirst {state next : TxState echo} {label : TxLabel}
    (inv : EchoInv layout state) (sound : EchoSound layout state label next) :
    EchoStoredFirst layout state label := by
  -- Between the queueing and the store the slot is empty.
  intro fifo frame asks at_
  have present := sound.present fifo asks
  rw [inv.empty fifo (Or.inr (by rw [at_]; rfl))] at present
  cases present

/-- In every run, the echoes are sound as long as each echo skb is stored before it is asked for. -/
theorem echoSound_iff_storedFirst (layout : TxLayout) (echo : EchoTable Nat)
    (labels : List TxLabel) :
    (txMachine layout echo).Along (EchoSound layout) (TxState.opened layout) labels ↔
      (txMachine layout echo).Along (fun state label _ => EchoStoredFirst layout state label)
        (TxState.opened layout) labels := by
  -- The invariant carries the one direction, and gives the other one step by step.
  have keeps : ∀ state label next, EchoInv layout state → EchoStoredFirst layout state label →
      (txMachine layout echo).step state label = some next →
      EchoInv layout next ∧ EchoSound layout state label next := by
    intro state label next inv met stepped
    have after := txStep_echoInv label inv met stepped
    exact ⟨after, inv.sound met stepped after⟩
  have breaks : ∀ state label next, EchoInv layout state → EchoSound layout state label next →
      (txMachine layout echo).step state label = some next → EchoStoredFirst layout state label :=
    fun _ _ _ inv sound _ => inv.storedFirst sound
  exact Machine.along_iff_condition keeps breaks labels _ (echoInv_opened layout)

/-- One frame up to the point at which its TEF object is about to be processed. -/
def lateEcho : List TxLabel :=
  [.startXmit, .spiAsync, .spiExecute, .markTxPending, .chipSent 25, .istSnapshot,
    .istStatus false, .istTxatif, .istTxatif, .istTxatif, .istTxatif, .istTxatif, .istTxatif,
    .istTxatif, .istTxatif, .istTefif, .istTefCount 0, .istTefCount 0]

/-- When that happens before `mcp25xxfd_start_xmit` stores its echo skb, the echo is lost. -/
theorem lateEcho_not_sound :
    ¬ (txMachine classicLayout (.ofFunction Nat)).Along (EchoSound classicLayout)
      (TxState.opened classicLayout) (lateEcho ++ [.istProcess 0, .putEchoSkb]) := by
  intro along
  have sound := Machine.Along.transition along
    (Option.some_get (by decide)).symm (Option.some_get (by decide)).symm
  -- The slot is empty at this point, as the store comes one step later.
  have present := sound.present 25 (by decide)
  revert present
  decide

end OpenwrtMisc.Mcp25xxfd
