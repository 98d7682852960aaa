import OpenwrtMisc.Mcp25xxfd.TxMachine

/-! The masks of the transmit path account for every frame, in every interleaving of its parties. -/

namespace OpenwrtMisc.Mcp25xxfd

open BitMask

variable {echo : EchoTable Nat} {layout : TxLayout}

/-- Whether a call of `mcp25xxfd_start_xmit` has marked this FIFO and not yet queued its message. -/
def Xmit.marks (xmit : Xmit) (fifo : Nat) : Nat :=
  match xmit with
  | .submitted marked _ => if marked = fifo then 1 else 0
  | _ => 0

/-- The number of places in the controller at which the frame of a FIFO is found. -/
def TxState.atChip (state : TxState echo) (fifo : Nat) : Nat :=
  (state.chipTxreq.getLsbD fifo).toNat + state.chipTef.count fifo +
    (state.chipTxatif.getLsbD fifo).toNat

/-- The number of places at which the frame of a FIFO is found on its way through a batch. -/
def TxState.places (state : TxState echo) (fifo : Nat) : Nat :=
  state.xmit.marks fifo + state.spiQueue.count fifo + state.atChip fifo +
    (state.txProcessedMask.getLsbD fifo).toNat

/-- What the interrupt thread may rely on at each point of a pass. -/
def IstInv (state : TxState echo) : Prop :=
  match state.ist with
  | .snapshot =>
    ∀ fifo, state.txPendingMaskInIrq.getLsbD fifo = true → state.txPendingMask.getLsbD fifo = true
  | .txatif next =>
    -- An aborted FIFO stays so until the loop reaches it.
    (∀ fifo, next ≤ fifo → state.statusTxatif.getLsbD fifo = true →
      state.chipTxatif.getLsbD fifo = true) ∧
    -- A frame that was pending and is no longer requested has an entry, was processed or will be.
    (∀ fifo, state.txPendingMaskInIrq.getLsbD fifo = true →
      state.statusTxreq.getLsbD fifo = false →
      fifo ∈ state.chipTef ∨ state.txProcessedMask.getLsbD fifo = true ∨
        (next ≤ fifo ∧ state.statusTxatif.getLsbD fifo = true))
  | .tefif =>
    ∀ fifo, state.txPendingMaskInIrq.getLsbD fifo = true →
      state.statusTxreq.getLsbD fifo = false →
      fifo ∈ state.chipTef ∨ state.txProcessedMask.getLsbD fifo = true
  | .tefCount left => left ≤ state.chipTef.length
  | .tefSingle => 0 < state.chipTef.length
  | _ => True

/-- The invariant of the transmit path. -/
structure TxInv (layout : TxLayout) (state : TxState echo) : Prop where
  /-- FIFOs are submitted one after the other from the first one on. -/
  submitted : ∃ count, count ≤ layout.txFifos ∧
    state.txSubmittedMask = span layout.txFifoStart count
  /-- Each submitted frame is at exactly one place, and no other FIFO is in use. -/
  placed : ∀ fifo, state.places fifo = (state.txSubmittedMask.getLsbD fifo).toNat
  /-- A FIFO is pending from the completion callback of its message on. -/
  pending : ∀ fifo, state.txPendingMask.getLsbD fifo = true ↔
    0 < state.atChip fifo + (state.txProcessedMask.getLsbD fifo).toNat ∧
      state.spiCompleting ≠ some fifo
  /-- The message that is about to be completed has triggered its FIFO. -/
  completing : ∀ fifo, state.spiCompleting = some fifo → 0 < state.atChip fifo
  /-- The queue is stopped from the last FIFO of a batch on. -/
  stopped : state.queueStopped = true ↔ state.txSubmittedMask = layout.txFifoMask
  /-- The driver and the controller agree on the oldest TEF entry. -/
  address : state.tefAddress = state.chipTefUA layout
  tefIndex : state.chipTefIndex < layout.tefFifos
  ist : IstInv state

/-- The bits of the mask of all transmit FIFOs. -/
theorem getLsbD_txFifoMask (layout : TxLayout) (fifo : Nat) :
    layout.txFifoMask.getLsbD fifo = true ↔
      layout.txFifoStart ≤ fifo ∧ fifo < layout.txFifoStart + layout.txFifos := by
  -- The mask is the span of the transmit FIFOs.
  have inMask := layout.inMask
  rw [TxLayout.txFifoMask, getLsbD_span]
  omega

/-- There are no more entries without repetition for transmit FIFOs than there are such FIFOs. -/
theorem length_le_txFifos {entries : List Nat} (counts : ∀ fifo, entries.count fifo ≤ 1)
    (inRange : ∀ fifo ∈ entries,
      layout.txFifoStart ≤ fifo ∧ fifo < layout.txFifoStart + layout.txFifos) :
    entries.length ≤ layout.txFifos := by
  -- The entries are part of the list of all transmit FIFOs.
  have nodup : entries.Nodup := List.nodup_iff_count.mpr counts
  have subset : entries ⊆ List.range' layout.txFifoStart layout.txFifos := by
    intro fifo member
    have range := inRange fifo member
    rw [List.mem_range'_1]
    omega
  have bounded := (List.subperm_of_subset nodup subset).length_le
  rw [List.length_range'] at bounded
  exact bounded

namespace TxInv

variable {state : TxState echo} (inv : TxInv layout state)
include inv

/-- A FIFO whose frame is found at some place is a submitted transmit FIFO. -/
theorem inRange (fifo : Nat) (found : 0 < state.places fifo) :
    layout.txFifoStart ≤ fifo ∧ fifo < layout.txFifoStart + layout.txFifos := by
  obtain ⟨count, bounded, mask⟩ := inv.submitted
  rw [inv.placed] at found
  -- Only a submitted FIFO counts for anything, and those are a run of transmit FIFOs.
  have once := Bool.toNat_le (state.txSubmittedMask.getLsbD fifo)
  have set : state.txSubmittedMask.getLsbD fifo = true := Bool.toNat_eq_one.mp (by omega)
  rw [mask, getLsbD_span] at set
  omega

/-- No frame is at two places. -/
theorem places_le (fifo : Nat) : state.places fifo ≤ 1 := by
  -- The places of a FIFO are counted by one bit.
  rw [inv.placed]
  exact Bool.toNat_le _

/-- While the queue is awake there is a FIFO left, the one after those already submitted. -/
theorem allocateFifo (awake : state.queueStopped = false) :
    ∃ count, count < layout.txFifos ∧ state.txSubmittedMask = span layout.txFifoStart count ∧
      allocateFifo layout state = some (layout.txFifoStart + count) := by
  obtain ⟨count, bounded, mask⟩ := inv.submitted
  have inMask := layout.inMask
  -- A full batch would have stopped the queue.
  have notFull : count ≠ layout.txFifos := by
    intro full
    have stopped := inv.stopped.mpr (by rw [mask, full]; rfl)
    simp [awake] at stopped
  refine ⟨count, by omega, mask, ?_⟩
  -- Every pending FIFO is submitted, so the effective mask is the submitted one.
  have effective : state.txPendingMask ||| state.txSubmittedMask = state.txSubmittedMask := by
    refine ext fun fifo => ?_
    rw [BitVec.getLsbD_or]
    cases pending : state.txPendingMask.getLsbD fifo with
    | false => simp
    | true =>
      have found := ((inv.pending fifo).mp pending).1
      have placed := inv.placed fifo
      unfold TxState.places at placed
      have once := Bool.toNat_le (state.txSubmittedMask.getLsbD fifo)
      have set : state.txSubmittedMask.getLsbD fifo = true := Bool.toNat_eq_one.mp (by omega)
      rw [set]
      rfl
  unfold Mcp25xxfd.allocateFifo
  dsimp only
  rw [effective, mask]
  -- An empty batch starts with the first FIFO, any other one behind its highest bit.
  by_cases zero : count = 0
  · subst zero
    have := layout.nonempty
    simp [span]
    omega
  · have nonzero : (span layout.txFifoStart count : BitVec 32) ≠ 0 := by
      rw [Ne, span_eq_zero (by omega)]
      exact zero
    rw [if_pos nonzero, fls_span (by omega) (by omega), if_neg (by omega)]

/-- The TEF never fills up, as long as a frame is still on its way to it. -/
theorem tef_room {fifo : Nat} (requested : state.chipTxreq.getLsbD fifo = true) :
    state.chipTef.length < layout.tefFifos := by
  -- The requested FIFO and those in the TEF are distinct transmit FIFOs.
  have counts : ∀ other, (fifo :: state.chipTef).count other ≤ 1 := by
    intro other
    have bounded := inv.places_le other
    unfold TxState.places TxState.atChip at bounded
    rw [List.count_cons]
    by_cases same : fifo = other
    · subst same
      simp only [requested, Bool.toNat_true] at bounded
      simp only [beq_self_eq_true, if_true]
      omega
    · simp only [beq_iff_eq, same, if_false]
      omega
  have inRange : ∀ other ∈ fifo :: state.chipTef,
      layout.txFifoStart ≤ other ∧ other < layout.txFifoStart + layout.txFifos := by
    intro other member
    apply inv.inRange
    unfold TxState.places TxState.atChip
    rcases List.mem_cons.mp member with same | inTef
    · simp only [same, requested, Bool.toNat_true]
      omega
    · have := List.count_pos_iff.mpr inTef
      omega
  have bounded := length_le_txFifos counts inRange
  have holds := layout.tefHolds
  rw [List.length_cons] at bounded
  omega

end TxInv

/-- The invariant holds when the interface was just opened. -/
theorem txInv_opened (layout : TxLayout) :
    TxInv layout (TxState.opened layout : TxState echo) where
  submitted := ⟨0, by omega, rfl⟩
  placed fifo := by simp [TxState.opened, TxState.places, TxState.atChip, Xmit.marks]
  pending fifo := by simp [TxState.opened, TxState.atChip]
  completing fifo := by simp [TxState.opened]
  stopped := by
    have nonempty := layout.nonempty
    have inMask := layout.inMask
    have nonzero : (0 : BitVec 32) ≠ layout.txFifoMask := by
      intro zero
      have := (span_eq_zero (w := 32) inMask).mp zero.symm
      omega
    simpa [TxState.opened] using nonzero
  address := by simp [TxState.opened, TxState.chipTefUA]
  tefIndex := Nat.lt_of_lt_of_le layout.nonempty layout.tefHolds
  ist := trivial

/-- Steps of the other parties only add to what the interrupt thread relies on. -/
theorem IstInv.mono {state next : TxState echo} (holds : IstInv state)
    (ist : next.ist = state.ist) (inIrq : next.txPendingMaskInIrq = state.txPendingMaskInIrq)
    (txatif : next.statusTxatif = state.statusTxatif)
    (txreq : next.statusTxreq = state.statusTxreq)
    (processed : next.txProcessedMask = state.txProcessedMask)
    (pending : ∀ fifo, state.txPendingMask.getLsbD fifo = true →
      next.txPendingMask.getLsbD fifo = true)
    (aborted : ∀ fifo, state.chipTxatif.getLsbD fifo = true →
      next.chipTxatif.getLsbD fifo = true)
    (tef : state.chipTef <+: next.chipTef) : IstInv next := by
  -- The cases are the positions of the interrupt thread.
  unfold IstInv at holds ⊢
  rw [ist, inIrq, txatif, txreq, processed]
  cases at_ : state.ist with
  | snapshot =>
    simp only [at_] at holds ⊢
    exact fun fifo set => pending fifo (holds fifo set)
  | txatif fifo =>
    simp only [at_] at holds ⊢
    refine ⟨fun fifo reached set => aborted fifo (holds.1 fifo reached set), ?_⟩
    intro fifo set quiet
    -- The TEF only grows, so an entry that was there is still there.
    rcases holds.2 fifo set quiet with inTef | done
    · exact Or.inl (tef.subset inTef)
    · exact Or.inr done
  | tefif =>
    simp only [at_] at holds ⊢
    intro fifo set quiet
    rcases holds fifo set quiet with inTef | done
    · exact Or.inl (tef.subset inTef)
    · exact Or.inr done
  | tefCount left =>
    simp only [at_] at holds ⊢
    exact Nat.le_trans holds tef.length_le
  | tefSingle =>
    simp only [at_] at holds ⊢
    exact Nat.lt_of_lt_of_le holds tef.length_le
  | _ => trivial

/-- Marking the next FIFO as submitted extends the batch by one. -/
theorem submitFifo_inv {state : TxState echo} (inv : TxInv layout state)
    (ready : state.xmit = .idle) {count : Nat} (room : count < layout.txFifos)
    (mask : state.txSubmittedMask = span layout.txFifoStart count)
    (awake : state.queueStopped = false) :
    TxInv layout (submitFifo layout (layout.txFifoStart + count) state) := by
  have inMask := layout.inMask
  -- Stopping the queue touches neither the masks nor the frames on their way.
  have same : submitFifo layout (layout.txFifoStart + count) state =
      { state with
        txQueueStatus := (submitFifo layout (layout.txFifoStart + count) state).txQueueStatus
        queueStopped := isLastTxfifo layout (layout.txFifoStart + count)
        txSubmittedMask := state.txSubmittedMask ||| bit (layout.txFifoStart + count)
        xmit := .submitted (layout.txFifoStart + count) state.frames
        sent := Function.update state.sent (layout.txFifoStart + count) state.frames
        frames := state.frames + 1 } := by
    cases last : isLastTxfifo layout (layout.txFifoStart + count) <;>
      simp [submitFifo, stopQueue, last, awake]
  rw [same]
  refine
    { submitted := ⟨count + 1, room, by rw [mask]; rfl⟩
      placed := ?_
      pending := inv.pending
      completing := inv.completing
      stopped := ?_
      address := inv.address
      tefIndex := inv.tefIndex
      ist := inv.ist.mono rfl rfl rfl rfl rfl (fun _ set => set) (fun _ set => set)
        (List.prefix_refl _) }
  · intro fifo
    have before := inv.placed fifo
    simp only [TxState.places, TxState.atChip, ready, Xmit.marks] at before ⊢
    rw [getLsbD_set _ (by omega)]
    by_cases new : fifo = layout.txFifoStart + count
    · -- The new FIFO was found nowhere before, since it was not submitted.
      have free : state.txSubmittedMask.getLsbD fifo = false := by
        rw [mask, ← Bool.not_eq_true, getLsbD_span]
        omega
      simp only [free, Bool.toNat_false] at before
      simp only [new, if_true, decide_true, Bool.or_true, Bool.toNat_true]
      rw [new] at before
      omega
    · have other : ¬ layout.txFifoStart + count = fifo := fun same => new same.symm
      simp only [if_neg other, new, decide_false, Bool.or_false]
      omega
  · -- The mask is full exactly when the FIFO was the last one.
    simp only [isLastTxfifo, beq_iff_eq, mask]
    constructor
    · intro last
      have full : count + 1 = layout.txFifos := by omega
      rw [TxLayout.txFifoMask, ← full]
      rfl
    · intro full
      have same : (span layout.txFifoStart (count + 1) : BitVec 32) =
          span layout.txFifoStart layout.txFifos := full
      have lengths := span_inj (by omega) inMask same
      omega

/-- Queueing the message moves the frame of a submitted FIFO into the SPI queue. -/
theorem spiAsync_inv {state : TxState echo} (inv : TxInv layout state) {fifo frame : Nat}
    (at_ : state.xmit = .submitted fifo frame) :
    TxInv layout
      { state with xmit := .queued fifo frame, spiQueue := state.spiQueue ++ [fifo] } where
  submitted := inv.submitted
  placed other := by
    have before := inv.placed other
    simp only [TxState.places, TxState.atChip, at_, Xmit.marks] at before ⊢
    -- The frame counts once in either place: before in the FIFO, and then in the queue.
    rw [List.count_append, List.count_singleton]
    simp only [beq_iff_eq]
    omega
  pending := inv.pending
  completing := inv.completing
  stopped := inv.stopped
  address := inv.address
  tefIndex := inv.tefIndex
  ist := inv.ist.mono rfl rfl rfl rfl rfl (fun _ set => set) (fun _ set => set)
    (List.prefix_refl _)

/-- Storing the echo skb moves no frame. -/
theorem putEchoSkb_inv {state : TxState echo} (inv : TxInv layout state) {fifo frame : Nat}
    (at_ : state.xmit = .queued fifo frame) (slots : echo.Slots) :
    TxInv layout { state with xmit := .idle, slots := slots } where
  submitted := inv.submitted
  placed other := by
    have before := inv.placed other
    simpa only [TxState.places, TxState.atChip, at_, Xmit.marks] using before
  pending := inv.pending
  completing := inv.completing
  stopped := inv.stopped
  address := inv.address
  tefIndex := inv.tefIndex
  ist := inv.ist.mono rfl rfl rfl rfl rfl (fun _ set => set) (fun _ set => set)
    (List.prefix_refl _)

/-- Executing a message moves its frame from the SPI queue into the controller. -/
theorem spiExecute_inv {state : TxState echo} (inv : TxInv layout state) {fifo : Nat}
    {rest : List Nat} (quiet : state.spiCompleting = none) (queue : state.spiQueue = fifo :: rest) :
    TxInv layout
      { state with
        spiQueue := rest
        spiCompleting := some fifo
        chipTxreq := state.chipTxreq ||| bit fifo } := by
  have inMask := layout.inMask
  -- The message is in the queue, so its FIFO is a transmit FIFO.
  have found : 0 < state.places fifo := by
    simp only [TxState.places, queue, List.count_cons_self]
    omega
  have range := inv.inRange _ found
  -- In the queue, the frame was neither requested nor anywhere else in the controller.
  have alone : state.atChip fifo = 0 ∧ state.txProcessedMask.getLsbD fifo = false := by
    have bounded := inv.places_le fifo
    simp only [TxState.places, queue, List.count_cons_self] at bounded
    exact ⟨by omega, Bool.toNat_eq_zero.mp (by omega)⟩
  have requested : state.chipTxreq.getLsbD fifo = false := by
    have nowhere := alone.1
    rw [TxState.atChip] at nowhere
    exact Bool.toNat_eq_zero.mp (by omega)
  have chip := toNat_getLsbD_set (by omega) requested
  refine
    { submitted := inv.submitted
      placed := ?_
      pending := ?_
      completing := ?_
      stopped := inv.stopped
      address := inv.address
      tefIndex := inv.tefIndex
      ist := inv.ist.mono rfl rfl rfl rfl rfl (fun _ set => set) (fun _ set => set)
        (List.prefix_refl _) }
  · intro other
    have before := inv.placed other
    simp only [TxState.places, TxState.atChip, queue, List.count_cons, beq_iff_eq, chip]
      at before ⊢
    by_cases same : other = fifo
    · subst same; simp only [if_true] at before ⊢; omega
    · have different : ¬ fifo = other := fun equal => same equal.symm
      simp only [if_neg same, if_neg different] at before ⊢; omega
  · intro other
    have before := inv.pending other
    simp only [TxState.atChip, chip, quiet, ne_eq, reduceCtorEq, not_false_eq_true, and_true,
      Option.some.injEq] at before ⊢
    rw [before]
    by_cases same : other = fifo
    · subst same
      have := alone.1
      simp only [TxState.atChip] at this
      simp [this, alone.2]
    · have different : ¬ fifo = other := fun equal => same equal.symm
      simp only [if_neg same, different, not_false_eq_true, and_true, Nat.add_zero]
  · intro other same
    simp only [Option.some.injEq] at same
    subst same
    simp only [TxState.atChip, chip, if_true]
    omega

/-- The completion callback marks exactly the FIFO of the message as pending. -/
theorem markTxPending_inv {state : TxState echo} (inv : TxInv layout state) {fifo : Nat}
    (completing : state.spiCompleting = some fifo) : TxInv layout (markTxPending fifo state) := by
  have inMask := layout.inMask
  -- The message has triggered its FIFO, so its frame is in the controller.
  have atChip := inv.completing fifo completing
  have range := inv.inRange fifo (by simp only [TxState.places]; omega)
  refine
    { submitted := inv.submitted
      placed := inv.placed
      pending := ?_
      completing := by simp [markTxPending]
      stopped := inv.stopped
      address := inv.address
      tefIndex := inv.tefIndex
      ist := inv.ist.mono rfl rfl rfl rfl rfl ?_ (fun _ set => set) (List.prefix_refl _) }
  · intro other
    have before := inv.pending other
    simp only [markTxPending]
    rw [getLsbD_set _ (by omega)]
    by_cases same : other = fifo
    · subst same
      simp only [decide_true, Bool.or_true, true_iff, ne_eq, reduceCtorEq, not_false_eq_true,
        and_true]
      exact Nat.lt_of_lt_of_le atChip (Nat.le_add_right _ _)
    · have different : ¬ fifo = other := fun equal => same equal.symm
      simp only [completing, ne_eq, Option.some.injEq, different, not_false_eq_true,
        and_true] at before
      simp only [same, decide_false, Bool.or_false, before, ne_eq, reduceCtorEq,
        not_false_eq_true, and_true]
      rfl
  · intro other set
    simp only [markTxPending, BitVec.getLsbD_or, set, Bool.true_or]

/-- Sending a frame moves it from the requested FIFOs to the end of the TEF. -/
theorem chipSent_inv {state : TxState echo} (inv : TxInv layout state) {fifo : Nat}
    (requested : state.chipTxreq.getLsbD fifo = true) :
    TxInv layout
      { state with
        chipTxreq := state.chipTxreq &&& ~~~(bit fifo)
        chipTef :=
          if state.chipTef.length < layout.tefFifos then state.chipTef ++ [fifo]
          else state.chipTef } := by
  rw [if_pos (inv.tef_room requested)]
  have cleared := toNat_getLsbD_clear requested
  -- The request of the frame becomes its entry, so the count of its places stays.
  have chip : ∀ other,
      TxState.atChip { state with
        chipTxreq := state.chipTxreq &&& ~~~(bit fifo)
        chipTef := state.chipTef ++ [fifo] } other = state.atChip other := by
    intro other
    simp only [TxState.atChip, cleared, List.count_append, List.count_singleton, beq_iff_eq,
      @eq_comm _ fifo other]
    omega
  exact
    { submitted := inv.submitted
      placed := fun other => by
        have before := inv.placed other
        simpa only [TxState.places, chip] using before
      pending := fun other => by
        have before := inv.pending other
        simpa only [chip] using before
      completing := fun other same => by
        have before := inv.completing other same
        simpa only [chip] using before
      stopped := inv.stopped
      address := inv.address
      tefIndex := inv.tefIndex
      ist := inv.ist.mono rfl rfl rfl rfl rfl (fun _ set => set) (fun _ set => set)
        (List.prefix_append _ _) }

/-- Giving up on a frame moves it from the requested FIFOs to the aborted ones. -/
theorem chipAborted_inv {state : TxState echo} (inv : TxInv layout state) {fifo : Nat}
    (requested : state.chipTxreq.getLsbD fifo = true) :
    TxInv layout
      { state with
        chipTxreq := state.chipTxreq &&& ~~~(bit fifo)
        chipTxatif := state.chipTxatif ||| bit fifo } := by
  -- The frame was requested, and is at no other place.
  have inMask := layout.inMask
  have cleared := toNat_getLsbD_clear requested
  have range := inv.inRange fifo (by
    simp only [TxState.places, TxState.atChip, requested, Bool.toNat_true]; omega)
  have notAborted : state.chipTxatif.getLsbD fifo = false := by
    -- The request is the one place of the frame.
    have bounded := inv.places_le fifo
    simp only [TxState.places, TxState.atChip, requested, Bool.toNat_true] at bounded
    exact Bool.toNat_eq_zero.mp (by omega)
  have raised := toNat_getLsbD_set (by omega) notAborted
  -- The request of the frame becomes its abort, so the count of its places stays.
  have chip : ∀ other,
      TxState.atChip { state with
        chipTxreq := state.chipTxreq &&& ~~~(bit fifo)
        chipTxatif := state.chipTxatif ||| bit fifo } other = state.atChip other := by
    intro other
    simp only [TxState.atChip, cleared, raised]
    omega
  exact
    { submitted := inv.submitted
      placed := fun other => by
        have before := inv.placed other
        simpa only [TxState.places, chip] using before
      pending := fun other => by
        have before := inv.pending other
        simpa only [chip] using before
      completing := fun other same => by
        have before := inv.completing other same
        simpa only [chip] using before
      stopped := inv.stopped
      address := inv.address
      tefIndex := inv.tefIndex
      ist := inv.ist.mono rfl rfl rfl rfl rfl (fun _ set => set)
        (fun other set => by simp only [BitVec.getLsbD_or, set, Bool.true_or])
        (List.prefix_refl _) }

/-- A step of the interrupt thread that only moves its position keeps the frames in place. -/
theorem TxInv.move {state : TxState echo} (inv : TxInv layout state) (position : Ist)
    (holds : IstInv { state with ist := position }) :
    TxInv layout { state with ist := position } where
  submitted := inv.submitted
  placed := inv.placed
  pending := inv.pending
  completing := inv.completing
  stopped := inv.stopped
  address := inv.address
  tefIndex := inv.tefIndex
  ist := holds

/-- The copy of the pending mask is taken while it is the pending mask. -/
theorem istSnapshot_inv {state : TxState echo} (inv : TxInv layout state) :
    TxInv layout { state with txPendingMaskInIrq := state.txPendingMask, ist := .snapshot } where
  submitted := inv.submitted
  placed := inv.placed
  pending := inv.pending
  completing := inv.completing
  stopped := inv.stopped
  address := inv.address
  tefIndex := inv.tefIndex
  ist := fun _ set => set

/--
The status tells where each frame of the snapshot is.

The snapshot is older than the status, so each of its FIFOs has been triggered before it.
-/
theorem istStatus_inv {state : TxState echo} (inv : TxInv layout state)
    (at_ : state.ist = .snapshot) (tefif : Bool) (queuedTef : List Nat) :
    TxInv layout
      { state with
        statusTefif := tefif
        statusTxatif := state.chipTxatif
        statusTxreq := state.chipTxreq
        queuedTef := queuedTef
        ist := .txatif layout.txFifoStart } where
  submitted := inv.submitted
  placed := inv.placed
  pending := inv.pending
  completing := inv.completing
  stopped := inv.stopped
  address := inv.address
  tefIndex := inv.tefIndex
  ist := by
    have snapshot := inv.ist
    simp only [IstInv, at_] at snapshot
    refine ⟨fun _ _ set => set, ?_⟩
    intro fifo set idle
    -- The FIFO was triggered before the snapshot, so its frame has a place.
    have found := ((inv.pending fifo).mp (snapshot fifo set)).1
    have range := inv.inRange fifo (by simp only [TxState.places]; omega)
    simp only [TxState.atChip] at found idle
    -- Not requested any more, the frame was sent, aborted or already processed.
    by_cases sent : fifo ∈ state.chipTef
    · exact Or.inl sent
    · rw [idle, List.count_eq_zero_of_not_mem sent, Bool.toNat_false] at found
      cases done : state.txProcessedMask.getLsbD fifo with
      | true => exact Or.inr (Or.inl rfl)
      | false =>
        rw [done, Bool.toNat_false] at found
        cases aborted : state.chipTxatif.getLsbD fifo with
        | true => exact Or.inr (Or.inr ⟨range.1, rfl⟩)
        | false => simp [aborted] at found

/-- Processing an aborted frame moves it from the aborted FIFOs to the processed ones. -/
theorem istTxatif_inv {state : TxState echo} (inv : TxInv layout state) {fifo : Nat}
    (at_ : state.ist = .txatif fifo) (aborted : state.statusTxatif.getLsbD fifo = true)
    (quiet : state.spiCompleting = none) :
    TxInv layout { handleTxatifFifo layout fifo state with ist := .txatif (fifo + 1) } := by
  -- The frame was aborted, and is at no other place.
  have inMask := layout.inMask
  have known := inv.ist
  simp only [IstInv, at_] at known
  -- The status showed the abort, and only the loop itself takes it back.
  have chipAborted := known.1 fifo (Nat.le_refl _) aborted
  have range := inv.inRange fifo (by
    simp only [TxState.places, TxState.atChip, chipAborted, Bool.toNat_true]; omega)
  have notProcessed : state.txProcessedMask.getLsbD fifo = false := by
    -- The abort is the one place of the frame.
    have bounded := inv.places_le fifo
    simp only [TxState.places, TxState.atChip, chipAborted, Bool.toNat_true] at bounded
    exact Bool.toNat_eq_zero.mp (by omega)
  have moved : ∀ other,
      ((state.chipTxatif &&& ~~~(bit fifo)).getLsbD other).toNat +
        ((state.txProcessedMask ||| bit fifo).getLsbD other).toNat =
      (state.chipTxatif.getLsbD other).toNat + (state.txProcessedMask.getLsbD other).toNat := by
    intro other
    rw [toNat_getLsbD_clear chipAborted other, toNat_getLsbD_set (by omega) notProcessed other]
    omega
  refine
    { submitted := inv.submitted
      placed := ?_
      pending := ?_
      completing := ?_
      stopped := inv.stopped
      address := inv.address
      tefIndex := inv.tefIndex
      ist := ?_ }
  · intro other
    have before := inv.placed other
    have here := moved other
    simp only [TxState.places, TxState.atChip, handleTxatifFifo, markTxProcessed, getEchoSkb]
      at before ⊢
    omega
  · intro other
    have before := inv.pending other
    have here := moved other
    simp only [TxState.atChip, handleTxatifFifo, markTxProcessed, getEchoSkb] at before ⊢
    rw [before]
    constructor
    · intro given
      rcases given with ⟨found, idle⟩
      exact ⟨by omega, idle⟩
    · intro given
      rcases given with ⟨found, idle⟩
      exact ⟨by omega, idle⟩
  · intro other same
    simp [handleTxatifFifo, markTxProcessed, getEchoSkb, quiet] at same
  · refine ⟨?_, ?_⟩
    · intro other later set
      have still := known.1 other (by omega) set
      simp only [handleTxatifFifo, markTxProcessed, getEchoSkb]
      rw [getLsbD_clear, still]
      have : other ≠ fifo := by omega
      simp [this]
    · intro other set idle
      simp only [handleTxatifFifo, markTxProcessed, getEchoSkb]
      rw [getLsbD_set _ (by omega)]
      by_cases same : other = fifo
      · exact Or.inr (Or.inl (by simp [same]))
      · rcases known.2 other set idle with inTef | done | ⟨later, raised⟩
        · exact Or.inl inTef
        · exact Or.inr (Or.inl (by simp [done]))
        · exact Or.inr (Or.inr ⟨by omega, raised⟩)

/--
The number of entries that the driver expects is no larger than the number of those in the TEF.

The snapshot is older than the status, but a frame that it misses is in the TEF or processed.
-/
theorem tefifCount_le {state : TxState echo}
    (known : ∀ fifo, state.txPendingMaskInIrq.getLsbD fifo = true →
      state.statusTxreq.getLsbD fifo = false →
      fifo ∈ state.chipTef ∨ state.txProcessedMask.getLsbD fifo = true) :
    tefifCount state ≤ (state.chipTef.length : Int) := by
  -- The counted FIFOs were pending, are not requested and not processed: all are in the TEF.
  have split := hweight_split (state.txPendingMaskInIrq &&& ~~~state.txProcessedMask)
    state.statusTxreq
  have listed :
      hweight ((state.txPendingMaskInIrq &&& ~~~state.txProcessedMask) &&& ~~~state.statusTxreq) ≤
        state.chipTef.length := by
    refine hweight_le_length fun fifo set => ?_
    have inside := BitVec.lt_of_getLsbD set
    simp only [BitVec.getLsbD_and, BitVec.getLsbD_not, inside, decide_true, Bool.true_and,
      Bool.and_eq_true, Bool.not_eq_true'] at set
    rcases known fifo set.1.1 set.2 with inTef | done
    · exact inTef
    · simp [done] at set
  have count : tefifCount state =
      (hweight ((state.txPendingMaskInIrq &&& ~~~state.txProcessedMask) &&&
        ~~~state.statusTxreq) : Int) := by
    simp only [tefifCount]
    omega
  rw [count]
  exact Int.ofNat_le.mpr listed

/-- The counted loop expects no more entries than the TEF holds. -/
theorem handleTefif_inv {state : TxState echo} (inv : TxInv layout state)
    (at_ : state.ist = .tefif) : TxInv layout { state with ist := handleTefif state } := by
  refine inv.move _ ?_
  have known := inv.ist
  simp only [IstInv, at_] at known
  have bounded := tefifCount_le known
  unfold handleTefif
  -- The careful loop looks at the TEF itself before each entry.
  split
  · trivial
  · simp only [IstInv]
    omega

/-- The driver's address after an entry is the address of the next ring position. -/
theorem nextTefAddress_ring (layout : TxLayout) {index : Nat} (inside : index < layout.tefFifos) :
    nextTefAddress layout (layout.tefAddressStart + index * sizeofTef) =
      layout.tefAddressStart + (index + 1) % layout.tefFifos * sizeofTef := by
  unfold nextTefAddress TxLayout.tefAddressEnd sizeofTef
  -- Behind the last entry the address goes back to the start of the ring.
  by_cases last : index + 1 = layout.tefFifos
  · rw [last, Nat.mod_self, if_pos (by omega)]
    omega
  · rw [Nat.mod_eq_of_lt (by omega), if_neg (by omega)]
    omega

/-- With an entry in the TEF, the driver pops that entry and marks its FIFO as processed. -/
theorem handleTefifSingle_eq {state : TxState echo}
    (address : state.tefAddress = state.chipTefUA layout) (stale : Nat) {fifo : Nat}
    {rest : List Nat} (tef : state.chipTef = fifo :: rest) :
    handleTefifSingle layout stale state =
      { state with
        chipTef := rest
        chipTefIndex := (state.chipTefIndex + 1) % layout.tefFifos
        queuedTef := state.queuedTef ++ [fifo]
        tefAddress := nextTefAddress layout state.tefAddress
        txProcessedMask := state.txProcessedMask ||| bit fifo
        txQueueStatus :=
          if isLastTxfifo layout fifo then txQueueStatusNeedsStart else state.txQueueStatus } := by
  -- The driver's address is that of the oldest entry, so no stale entry is read.
  have read : readTef layout stale state = fifo := by
    simp [readTef, address, tef]
  simp only [handleTefifSingle, incrementTef, markTxProcessed, tef, read]

/-- Popping a TEF entry that is there moves its frame to the processed FIFOs. -/
theorem handleTefifSingle_inv {state : TxState echo} (inv : TxInv layout state) (stale : Nat)
    (position : Ist) (quiet : state.spiCompleting = none) {fifo : Nat} {rest : List Nat}
    (tef : state.chipTef = fifo :: rest)
    (holds : IstInv { handleTefifSingle layout stale state with ist := position }) :
    TxInv layout { handleTefifSingle layout stale state with ist := position } := by
  -- The frame was in the TEF, and is at no other place.
  have inMask := layout.inMask
  have range := inv.inRange fifo (by
    simp only [TxState.places, TxState.atChip, tef, List.count_cons_self]; omega)
  have notProcessed : state.txProcessedMask.getLsbD fifo = false := by
    -- The entry is the one place of the frame.
    have bounded := inv.places_le fifo
    simp only [TxState.places, TxState.atChip, tef, List.count_cons_self] at bounded
    exact Bool.toNat_eq_zero.mp (by omega)
  have moved : ∀ other, rest.count other +
      ((state.txProcessedMask ||| bit fifo).getLsbD other).toNat =
      (fifo :: rest).count other + (state.txProcessedMask.getLsbD other).toNat := by
    intro other
    rw [List.count_cons, toNat_getLsbD_set (by omega) notProcessed other]
    simp only [beq_iff_eq, @eq_comm _ fifo other]
    omega
  rw [handleTefifSingle_eq inv.address stale tef] at holds ⊢
  refine
    { submitted := inv.submitted
      placed := ?_
      pending := ?_
      completing := ?_
      stopped := inv.stopped
      address := ?_
      tefIndex := Nat.mod_lt _ (Nat.lt_of_le_of_lt (Nat.zero_le _) inv.tefIndex)
      ist := holds }
  · intro other
    have before := inv.placed other
    have here := moved other
    simp only [TxState.places, TxState.atChip, tef] at before ⊢
    omega
  · intro other
    have before := inv.pending other
    have here := moved other
    simp only [TxState.atChip, tef] at before ⊢
    rw [before]
    constructor
    · intro given
      rcases given with ⟨found, idle⟩
      exact ⟨by omega, idle⟩
    · intro given
      rcases given with ⟨found, idle⟩
      exact ⟨by omega, idle⟩
  · intro other same
    simp [quiet] at same
  · have address := inv.address
    simp only [TxState.chipTefUA] at address ⊢
    rw [address, nextTefAddress_ring layout inv.tefIndex]

/-- Waking the queue after the last frame of a batch leaves no frame behind. -/
theorem wakeQueue_inv {state : TxState echo} (inv : TxInv layout state)
    (done : state.txProcessedMask = layout.txFifoMask) :
    TxInv layout { wakeQueue state with ist := .idle } := by
  -- Every frame of the batch is at the processed place, so all other places are empty.
  have elsewhere : ∀ fifo, state.xmit.marks fifo + state.spiQueue.count fifo +
      state.atChip fifo = 0 := by
    intro fifo
    have bounded := inv.places_le fifo
    by_cases found : 0 < state.places fifo
    · have range := inv.inRange _ found
      have processed := (getLsbD_txFifoMask layout fifo).mpr range
      rw [← done] at processed
      simp only [TxState.places, processed, Bool.toNat_true] at bounded
      omega
    · simp only [TxState.places] at found
      omega
  have nonempty := layout.nonempty
  have inMask := layout.inMask
  refine
    { submitted := ⟨0, by omega, rfl⟩
      placed := ?_
      pending := ?_
      completing := ?_
      stopped := ?_
      address := inv.address
      tefIndex := inv.tefIndex
      ist := trivial }
  · intro fifo
    have := elsewhere fifo
    simp only [TxState.atChip] at this
    simp only [TxState.places, TxState.atChip, wakeQueue, BitVec.ofNat_eq_ofNat,
      BitVec.getLsbD_zero, Bool.toNat_false]
    omega
  · intro fifo
    have := elsewhere fifo
    simp only [TxState.atChip] at this
    simp only [TxState.atChip, wakeQueue, BitVec.ofNat_eq_ofNat, BitVec.getLsbD_zero,
      Bool.toNat_false, Bool.false_eq_true, false_iff, not_and]
    omega
  · intro fifo same
    have atChip := inv.completing fifo same
    have := elsewhere fifo
    omega
  · -- There is a transmit FIFO, so the empty mask is not the full one.
    have nonzero : ¬ (0 : BitVec 32) = layout.txFifoMask := by
      intro zero
      have := (span_eq_zero (w := 32) inMask).mp zero.symm
      omega
    simp only [wakeQueue, Bool.false_eq_true, false_iff]
    exact nonzero

/-- Every step of every party preserves the invariant of the transmit path. -/
theorem txStep_inv {state next : TxState echo} (label : TxLabel) (inv : TxInv layout state)
    (stepped : txStep layout layout.txFifoMask state label = some next) : TxInv layout next := by
  -- The cases are the moves of the machine, each with its own lemma or with nothing that changes.
  cases txMove_of_txStep stepped with
  | startXmitBusy awake full => exact inv
  | startXmit idle awake allocated =>
    obtain ⟨count, room, mask, next⟩ := inv.allocateFifo awake
    rw [allocated, Option.some.injEq] at next
    rw [next]
    exact submitFifo_inv inv idle room mask awake
  | spiAsync at_ => exact spiAsync_inv inv at_
  | putEchoSkb at_ => exact putEchoSkb_inv inv at_ _
  | spiExecute quiet queue => exact spiExecute_inv inv quiet queue
  | markTxPending completing => exact markTxPending_inv inv completing
  | chipSent requested => exact chipSent_inv inv requested
  | chipAborted requested => exact chipAborted_inv inv requested
  | istSnapshot at_ => exact istSnapshot_inv inv
  | istStatus at_ quiet work => exact istStatus_inv inv at_ _ []
  | istStatusIdle at_ quiet none =>
    exact (istStatus_inv inv at_ (!state.chipTef.isEmpty) state.queuedTef).move .idle trivial
  | istTxatif at_ inside aborted quiet => exact istTxatif_inv inv at_ aborted quiet
  | @istTxatifPassed fifo at_ inside passed =>
    -- A FIFO without the flag is passed over.
    have known := inv.ist
    simp only [IstInv, at_] at known
    refine inv.move _ ⟨fun other later => known.1 other (by omega), ?_⟩
    intro other set idle
    rcases known.2 other set idle with inTef | done | ⟨reached, raised⟩
    · exact Or.inl inTef
    · exact Or.inr (Or.inl done)
    · refine Or.inr (Or.inr ⟨?_, raised⟩)
      have different : other ≠ fifo := by
        intro same
        rw [same, passed] at raised
        exact Bool.false_ne_true raised
      omega
  | istTxatifEnded at_ past =>
    -- Past the last FIFO no abort is left over.
    have known := inv.ist
    simp only [IstInv, at_] at known
    refine inv.move _ ?_
    intro other set idle
    rcases known.2 other set idle with inTef | done | ⟨reached, raised⟩
    · exact Or.inl inTef
    · exact Or.inr done
    · have aborted := known.1 other reached raised
      have range := inv.inRange other (by
        simp only [TxState.places, TxState.atChip, aborted, Bool.toNat_true]; omega)
      omega
  | istTefif at_ =>
    by_cases tefif : state.statusTefif = true
    · rw [if_pos tefif]
      exact handleTefif_inv inv at_
    · rw [if_neg tefif]
      exact inv.move _ trivial
  | istTefCounted at_ => exact inv.move _ trivial
  | @istTefCount stale left at_ quiet =>
    have known := inv.ist
    simp only [IstInv, at_] at known
    -- The count is no larger than the TEF is long, so there is an entry to pop.
    cases tef : state.chipTef with
    | nil => simp [tef] at known
    | cons fifo rest =>
      refine handleTefifSingle_inv inv stale _ quiet tef ?_
      rw [handleTefifSingle_eq inv.address stale tef]
      simp only [tef, List.length_cons] at known
      simp only [IstInv]
      omega
  | istTefEmpty at_ empty => exact inv.move _ trivial
  | istTefCheck at_ nonempty =>
    rw [← inv.address]
    exact inv.move _ (List.length_pos_of_ne_nil nonempty)
  | @istTefSingle stale at_ quiet =>
    have known := inv.ist
    simp only [IstInv, at_] at known
    cases tef : state.chipTef with
    | nil => simp [tef] at known
    | cons fifo rest => exact handleTefifSingle_inv inv stale _ quiet tef trivial
  | istProcess at_ found =>
    exact
      { submitted := inv.submitted
        placed := inv.placed
        pending := inv.pending
        completing := inv.completing
        stopped := inv.stopped
        address := inv.address
        tefIndex := inv.tefIndex
        ist := by simp [IstInv, getEchoSkb, at_] }
  | istProcessed at_ empty => exact inv.move _ trivial
  | istWake at_ done => exact wakeQueue_inv inv done
  | istAsleep at_ waiting => exact inv.move _ trivial

/-- The invariant holds in every state that the transmit machine reaches. -/
theorem reachable_inv {state : TxState echo} (reachable : (txMachine layout echo).Reachable state) :
    TxInv layout state := by
  -- The invariant holds at the start and is kept by each step.
  have keeps : ∀ before label next, TxInv layout before →
      (txMachine layout echo).step before label = some next → TxInv layout next :=
    fun _ label _ inv stepped => txStep_inv label inv stepped
  exact reachable.invariant (txInv_opened layout) keeps

/-- What the masks and the net queue tell about a batch of frames. -/
structure TxBatch (layout : TxLayout) (state : TxState echo) : Prop where
  processed_pending : Subset state.txProcessedMask state.txPendingMask
  pending_submitted : Subset state.txPendingMask state.txSubmittedMask
  submitted_fifos : Subset state.txSubmittedMask layout.txFifoMask
  /-- The submitted FIFOs are a run of FIFOs from the first one on. -/
  contiguous : ∃ count, count ≤ layout.txFifos ∧
    state.txSubmittedMask = span layout.txFifoStart count
  /-- The queue is stopped exactly while all FIFOs are submitted. -/
  stopped : state.queueStopped = true ↔ state.txSubmittedMask = layout.txFifoMask
  /-- While it is awake, `mcp25xxfd_start_xmit` finds a transmit FIFO that is not in use. -/
  free : state.queueStopped = false → ∃ fifo, allocateFifo layout state = some fifo ∧
    layout.txFifoMask.getLsbD fifo = true ∧ state.txSubmittedMask.getLsbD fifo = false

/-- Every interleaving of xmit, SPI engine, controller and interrupts keeps the batch sound. -/
theorem txBatch_of_reachable {state : TxState echo}
    (reachable : (txMachine layout echo).Reachable state) : TxBatch layout state := by
  -- Every part follows from the one invariant of the reachable states.
  have inv := reachable_inv reachable
  have inMask := layout.inMask
  constructor
  · -- A processed frame has left the controller, so its callback is not still to come.
    refine subset_iff.mpr fun fifo processed => (inv.pending fifo).mpr ⟨?_, ?_⟩
    · simp only [processed, Bool.toNat_true]; omega
    · intro completing
      have atChip := inv.completing fifo completing
      have bounded := inv.places_le fifo
      simp only [TxState.places, processed, Bool.toNat_true] at bounded
      omega
  · refine subset_iff.mpr fun fifo pending => ?_
    have found := ((inv.pending fifo).mp pending).1
    have placed := inv.placed fifo
    simp only [TxState.places] at placed
    have once := Bool.toNat_le (state.txSubmittedMask.getLsbD fifo)
    exact Bool.toNat_eq_one.mp (by omega)
  · -- A run of FIFOs from the first one on ends with the last one at most.
    obtain ⟨count, bounded, mask⟩ := inv.submitted
    refine subset_iff.mpr fun fifo set => (getLsbD_txFifoMask layout fifo).mpr ?_
    rw [mask, getLsbD_span] at set
    omega
  · exact inv.submitted
  · exact inv.stopped
  · intro awake
    -- The FIFO that is decided on is the one behind the run.
    obtain ⟨count, room, mask, allocated⟩ := inv.allocateFifo awake
    refine ⟨_, allocated, (getLsbD_txFifoMask layout _).mpr (by omega), ?_⟩
    rw [mask, ← Bool.not_eq_true, getLsbD_span]
    omega

/-- The layout for classic frames: seven transmit FIFOs behind twenty-four receive FIFOs. -/
def classicLayout : TxLayout where
  txFifoStart := 25
  txFifos := 7
  tefFifos := 32
  tefAddressStart := 0
  nonempty := by decide
  inMask := by decide
  tefHolds := by decide

/-- Two frames, the first sent and processed while the second waits in the SPI queue. -/
def twoFrames : List TxLabel :=
  [.startXmit, .spiAsync, .putEchoSkb, .spiExecute, .startXmit, .markTxPending, .spiAsync,
    .istSnapshot, .chipSent 25, .istStatus false, .putEchoSkb, .istTxatif, .istTxatif, .istTxatif,
    .istTxatif, .istTxatif, .istTxatif, .istTxatif, .istTxatif, .istTefif, .istTefCount 0]

/-- The batch is sound after one frame of two was processed. -/
theorem txBatch_twoFrames :
    TxBatch classicLayout
      (((txMachine classicLayout (.ofFunction Nat)).exec (TxState.opened classicLayout)
        twoFrames).get (by decide)) :=
  txBatch_of_reachable ⟨twoFrames, (Option.some_get _).symm⟩

end OpenwrtMisc.Mcp25xxfd
