import OpenwrtMisc.Mcp2515Usb.Accounting

/-! Every skb, URB reference and buffer of the mcp2515-usb driver is released exactly once. -/

namespace OpenwrtMisc.Mcp2515Usb

variable {echo : EchoTable Nat}

/-- The number of URBs in flight for a call. -/
def UsbState.pending (state : UsbState echo) (call : Nat) : Nat :=
  (state.inFlight.map TxUrb.call).count call

/--
What a call has obtained it has released, or its URB in flight still holds it.

A URB in flight holds the skb in its echo slot, the reference of the anchor and the buffer.
-/
structure CallOwned (state : UsbState echo) (call : Nat) : Prop where
  skb : state.log.count (.skbReleased call) + state.pending call =
    if call < state.calls ∧ call ∉ state.busyCalls then 1 else 0
  urb : state.log.count (.urbReleased call) + state.pending call =
    state.log.count (.urbObtained call)
  buffer : state.log.count (.bufferReleased call) + state.pending call =
    state.log.count (.bufferObtained call)

/-- No skb is released twice. -/
theorem CallOwned.skb_le {state : UsbState echo} {call : Nat} (owned : CallOwned state call) :
    state.log.count (.skbReleased call) ≤ 1 := by
  -- The skb was released as often as it is not pending.
  have skb := owned.skb
  split at skb <;> omega

/-- The invariant of the ownership, as long as the device serves. -/
structure OwnInv (state : UsbState echo) : Prop where
  contexts : ContextInv state
  /-- The echo slot of a URB in flight holds the skb of its call. -/
  held : ∀ urb ∈ state.inFlight, echo.slot state.slots urb.context = some urb.call
  /-- All other echo slots are empty. -/
  vacant : ∀ i, (∀ urb ∈ state.inFlight, (urb.context : Nat) ≠ i) →
    echo.slot state.slots i = none
  owned : ∀ call, CallOwned state call
  /-- No call has ended at `nofreecontext`. -/
  served : state.busyCalls = []

/-- A call that was not made yet has left no trace. -/
theorem OwnInv.untouched {state : UsbState echo} (inv : OwnInv state) {call : Nat}
    (later : state.calls ≤ call) :
    state.pending call = 0 ∧ state.log.count (.skbReleased call) = 0 := by
  -- A call that was not made is counted nowhere.
  have skb := (inv.owned call).skb
  rw [if_neg (by omega)] at skb
  omega

/-- The slot of a free context is empty. -/
theorem OwnInv.free_vacant {state : UsbState echo} (inv : OwnInv state) {i : Fin maxTxUrbs}
    (free : freeContext state = some i) : echo.slot state.slots i = none := by
  -- A URB in flight for the context would make it a busy one.
  refine inv.vacant i fun urb member same => ?_
  have used : i ∈ state.inFlight.map TxUrb.context :=
    List.mem_map.mpr ⟨urb, member, Fin.ext same⟩
  exact (inv.contexts.busy i).mpr used (freeContext_some free)

/-- A call that ends early has released all that it had. -/
theorem startXmit_early_own {state : UsbState echo} (inv : OwnInv state) {events : List UsbEvent}
    (released : events = [.skbReleased state.calls] ∨
      events = [.skbReleased state.calls, .urbReleased state.calls, .urbObtained state.calls])
    (contexts : ContextInv { state with
      calls := state.calls + 1, log := events ++ state.log }) :
    OwnInv { state with calls := state.calls + 1, log := events ++ state.log } := by
  -- The events are those of this call, and no other one is touched.
  refine
    { contexts := contexts
      held := inv.held
      vacant := inv.vacant
      owned := ?_
      served := inv.served }
  intro call
  have before := inv.owned call
  have skb := before.skb
  have urb := before.urb
  have buffer := before.buffer
  simp only [inv.served, List.not_mem_nil, not_false_eq_true, and_true] at skb
  by_cases same : call = state.calls
  · subst same
    have untouched := inv.untouched (Nat.le_refl state.calls)
    constructor
    · rcases released with rfl | rfl <;>
        simp [UsbState.pending, inv.served] at untouched skb ⊢ <;> omega
    · rcases released with rfl | rfl <;>
        simp [UsbState.pending] at urb ⊢ <;> omega
    · rcases released with rfl | rfl <;>
        simp [UsbState.pending] at buffer ⊢ <;> omega
  · -- The events are about the new call only.
    have different : ¬ state.calls = call := fun equal => same equal.symm
    have bound : call < state.calls + 1 ↔ call < state.calls := by omega
    constructor
    · rcases released with rfl | rfl <;>
        simpa [UsbState.pending, inv.served, List.count_cons, different, bound] using skb
    · rcases released with rfl | rfl <;>
        simpa [UsbState.pending, List.count_cons, different] using urb
    · rcases released with rfl | rfl <;>
        simpa [UsbState.pending, List.count_cons, different] using buffer

/-- A submitted URB takes over the skb, the reference of the anchor and the buffer. -/
theorem startXmit_sent_own {state : UsbState echo} (inv : OwnInv state) {i : Fin maxTxUrbs}
    (free : freeContext state = some i) :
    OwnInv
      { state with
        calls := state.calls + 1
        echoIndex := Function.update state.echoIndex i i
        slots := echo.canPutEchoSkb state.calls i state.slots
        activeTxUrbs := state.activeTxUrbs + 1
        inFlight := ⟨state.calls, i⟩ :: state.inFlight
        queueStopped :=
          if (maxTxUrbs : Int) ≤ state.activeTxUrbs + 1 then true else state.queueStopped
        log := [.urbReleased state.calls, .urbObtained state.calls, .bufferObtained state.calls,
          .urbObtained state.calls] ++ state.log } := by
  -- The skb goes into the free slot, and the reference to the one URB in flight that is new.
  have put := echo.slot_put state.calls i state.slots
  have empty := inv.free_vacant free
  refine
    { contexts := startXmit_sent_inv inv.contexts free _ _ _ _ _
      held := ?_
      vacant := ?_
      owned := ?_
      served := inv.served }
  · intro urb member
    simp only [put _ empty]
    rcases List.mem_cons.mp member with rfl | earlier
    · exact if_pos rfl
    · -- The slot was empty, so no older URB has its skb there.
      have different : (urb.context : Nat) ≠ i := by
        intro same
        have slot := inv.held urb earlier
        rw [same, empty] at slot
        cases slot
      rw [if_neg different]
      exact inv.held urb earlier
  · intro j unused
    simp only [put _ empty]
    have different : j ≠ i := (unused _ List.mem_cons_self).symm
    rw [if_neg different]
    exact inv.vacant j fun urb member => unused urb (.tail _ member)
  · intro call
    have before := inv.owned call
    have skb := before.skb
    have urb := before.urb
    have buffer := before.buffer
    simp only [inv.served, List.not_mem_nil, not_false_eq_true, and_true] at skb
    by_cases same : call = state.calls
    · subst same
      have untouched := inv.untouched (Nat.le_refl state.calls)
      constructor
      · simp [UsbState.pending, inv.served] at untouched ⊢
        omega
      · simp [UsbState.pending] at urb ⊢
        omega
      · simp [UsbState.pending] at buffer ⊢
        omega
    · have different : ¬ state.calls = call := fun equal => same equal.symm
      have bound : call < state.calls + 1 ↔ call < state.calls := by omega
      constructor
      · simpa [UsbState.pending, inv.served, List.count_cons, different, bound] using skb
      · simpa [UsbState.pending, List.count_cons, different] using urb
      · simpa [UsbState.pending, List.count_cons, different] using buffer

/-- A completion on a present interface releases what its URB held, and nothing else. -/
theorem complete_own {state : UsbState echo} (inv : OwnInv state) {place : Nat} {urb : TxUrb}
    (present : state.present = true) (found : state.inFlight[place]? = some urb) :
    OwnInv (writeIntCallback urb
      (UsbState.record [.urbReleased urb.call]
        { state with inFlight := state.inFlight.eraseIdx place })) := by
  -- The URB is the only one in flight with its context, and the one call that waits for it ends.
  have contexts := complete_inv inv.contexts present found
  have perm := inFlight_perm found
  have member : urb ∈ state.inFlight := List.mem_of_getElem? found
  have distinct := (perm.map TxUrb.context).nodup_iff.mp inv.contexts.distinct
  simp only [List.map_cons, List.nodup_cons] at distinct
  -- The context still carries its own index, so the slot is the one that the call has filled.
  have index : state.echoIndex urb.context = urb.context :=
    inv.contexts.index _ ((inv.contexts.busy _).mpr (List.mem_map_of_mem member))
  have slot := inv.held urb member
  have counts : ∀ call, state.pending call =
      ((state.inFlight.eraseIdx place).map TxUrb.call).count call +
        if urb.call = call then 1 else 0 := by
    intro call
    rw [UsbState.pending, (perm.map TxUrb.call).count_eq, List.map_cons, List.count_cons]
    simp only [beq_iff_eq]
  simp only [writeIntCallback, UsbState.record, present, Bool.true_eq_false, if_false,
    slotReleases, index, slot, Option.toList_some, List.map_cons, List.map_nil] at contexts ⊢
  refine
    { contexts := contexts
      held := ?_
      vacant := ?_
      owned := ?_
      served := inv.served }
  · intro other remains
    -- Contexts are distinct, so the slots of the other URBs are not touched.
    have different : (other.context : Nat) ≠ urb.context := by
      intro same
      exact distinct.1 (List.mem_map.mpr ⟨other, remains, Fin.ext same⟩)
    simp only [echo.slot_get]
    rw [if_neg different]
    exact inv.held other (perm.mem_iff.mpr (.tail _ remains))
  · intro j unused
    simp only [echo.slot_get]
    by_cases same : j = urb.context
    · rw [if_pos same]
    · rw [if_neg same]
      refine inv.vacant j fun other occupied => ?_
      rcases List.mem_cons.mp (perm.mem_iff.mp occupied) with rfl | remains
      · exact fun equal => same equal.symm
      · exact unused other remains
  · intro call
    have before := inv.owned call
    -- What is released moves from the pending calls to the log, for this call alone.
    have count := counts call
    have skb := before.skb
    have released := before.urb
    have buffer := before.buffer
    constructor
    · simp only [UsbState.pending, List.count_cons, List.count_append, beq_iff_eq] at skb count ⊢
      simp
      omega
    · simp only [UsbState.pending] at released count ⊢
      simp [List.count_cons]
      omega
    · simp only [UsbState.pending] at buffer count ⊢
      simp [List.count_cons]
      omega

/-- Closing a device with empty echo slots frees nothing. -/
theorem closeCandev_empty {state : UsbState echo}
    (empty : ∀ i, echo.slot state.slots i = none) :
    (closeCandev state).log = state.log ∧
      ∀ i, echo.slot (closeCandev state).slots i = none := by
  unfold closeCandev
  -- An empty slot is freed without any effect, whatever was freed before it.
  induction List.range maxTxUrbs generalizing state with
  | nil => exact ⟨rfl, empty⟩
  | cons j rest ih =>
    have freed : ∀ i, echo.slot (echo.canFreeEchoSkb j state.slots) i = none := by
      intro i
      rw [echo.slot_free]
      split
      · rfl
      · exact empty i
    obtain ⟨log, slots⟩ := @ih { state.record (slotReleases echo state.slots j) with
      slots := echo.canFreeEchoSkb j state.slots } freed
    refine ⟨?_, slots⟩
    rw [List.foldl_cons, log]
    simp [UsbState.record, slotReleases, empty j]

/-- Closing and opening a device with no URB in flight changes nothing that is owned. -/
theorem reopen_own {state : UsbState echo} (inv : OwnInv state) (quiet : state.inFlight = []) :
    OwnInv { closeCandev (unlinkAllUrbs state) with queueStopped := false } := by
  have contexts := reopen_inv quiet
  -- With nothing in flight all slots are empty.
  have empty : ∀ i, echo.slot (unlinkAllUrbs state).slots i = none := by
    intro i
    refine inv.vacant i fun urb member => ?_
    rw [quiet] at member
    cases member
  obtain ⟨log, vacant⟩ := closeCandev_empty empty
  obtain ⟨slots, events, closed⟩ := closeCandev_frame (unlinkAllUrbs state)
  rw [closed] at contexts log vacant ⊢
  simp only [unlinkAllUrbs] at log
  subst log
  refine
    { contexts := contexts
      held := ?_
      vacant := fun i _ => vacant i
      owned := fun call => ⟨(inv.owned call).skb, (inv.owned call).urb, (inv.owned call).buffer⟩
      served := inv.served }
  intro urb member
  simp only [unlinkAllUrbs, quiet] at member
  cases member

/-- A step that the device serves keeps the ownership. -/
theorem usbStep_own {state next : UsbState echo} (label : UsbLabel) (inv : OwnInv state)
    (accepted : UsbServes state label) (stepped : usbStep state label = some next) :
    OwnInv next := by
  -- The accounting of the contexts is kept, and each step hands over what it takes.
  have contexts := usbStep_inv label inv.contexts accepted stepped
  cases label with
  | startXmit outcome =>
    simp only [usbStep] at stepped
    split at stepped
    · rename_i awake
      cases stepped
      -- The call gets to its submission, or returns before with all that it took released.
      by_cases prepared : outcome.Prepared
      · obtain ⟨i, free⟩ := inv.contexts.free_of_awake awake
        have submitted := accepted prepared.1 prepared.2.1 prepared.2.2
        rw [startXmit_sent prepared free submitted]
        exact startXmit_sent_own inv free
      · obtain ⟨events, released, early⟩ := startXmit_early state prepared
        rw [early] at contexts ⊢
        exact startXmit_early_own inv released contexts
    · cases stepped
  | complete place =>
    simp only [usbStep] at stepped
    split at stepped
    · cases stepped
    · rename_i urb found
      cases stepped
      exact complete_own inv accepted found
  | detach =>
    simp only [usbStep] at stepped
    split at stepped
    · cases stepped
      -- Nothing that is owned changes hands.
      exact
        { contexts := contexts
          held := inv.held
          vacant := inv.vacant
          owned := fun call => ⟨(inv.owned call).skb, (inv.owned call).urb, (inv.owned call).buffer⟩
          served := inv.served }
    · cases stepped
  | reopen =>
    simp only [usbStep] at stepped
    split at stepped
    · rename_i quiet
      cases stepped
      exact reopen_own inv quiet.1
    · cases stepped

/-- A refused URB has its skb freed in the echo slot and once more at `nomem`. -/
theorem startXmit_refused_frees {state : UsbState echo} {outcome : XmitOutcome}
    {err : SubmitError} (inv : OwnInv state) (awake : state.queueStopped = false)
    (prepared : outcome.Prepared) (refused : outcome.submit = .error err) :
    (startXmit outcome state).1.log.count (.skbReleased state.calls) = 2 := by
  obtain ⟨i, free⟩ := inv.contexts.free_of_awake awake
  -- The slot took the skb over, so the error path frees it there and once more at its end.
  have slot := echo.slot_put state.calls i state.slots i (inv.free_vacant free)
  have untouched := (inv.untouched (Nat.le_refl state.calls)).2
  rw [if_pos rfl] at slot
  rw [startXmit_failed prepared free refused]
  simp [slotReleases, slot, untouched]

/-- A completion on a detached interface leaves the skb with its echo slot and with nobody else. -/
theorem complete_detached_keeps {state : UsbState echo} {place : Nat} {urb : TxUrb}
    (inv : OwnInv state) (detached : state.present = false)
    (found : state.inFlight[place]? = some urb) :
    ¬ CallOwned (writeIntCallback urb
        (UsbState.record [.urbReleased urb.call]
          { state with inFlight := state.inFlight.eraseIdx place })) urb.call := by
  intro owned
  have before := (inv.owned urb.call).skb
  have after := owned.skb
  -- One URB of the call is taken out of the pending ones, and no release is added to the log.
  have count := ((inFlight_perm found).map TxUrb.call).count_eq urb.call
  rw [List.map_cons, List.count_cons_self] at count
  simp only [writeIntCallback, UsbState.record, detached, if_true] at after
  simp only [UsbState.pending, List.cons_append, List.nil_append] at before after
  rw [List.count_cons_of_ne (by simp), List.count_cons_of_ne (by simp)] at after
  omega

/-- A step after which every call owns what it should is one that the device has served. -/
theorem usbServes_of_owned {state next : UsbState echo} (label : UsbLabel)
    (inv : OwnInv state) (owned : ∀ call, CallOwned next call)
    (stepped : usbStep state label = some next) : UsbServes state label := by
  -- One case for each step: what the device did not serve shows in who owns the skb.
  cases label with
  | startXmit outcome =>
    intro invalid urb buffer
    simp only [usbStep] at stepped
    split at stepped
    · rename_i awake
      cases stepped
      cases refused : outcome.submit with
      | ok _ => rfl
      | error err =>
        -- A refused call frees its skb twice.
        have frees := startXmit_refused_frees inv awake ⟨invalid, urb, buffer⟩ refused
        have once := (owned state.calls).skb_le
        simp only [frees] at once
        omega
    · cases stepped
  | complete place =>
    simp only [usbStep] at stepped
    split at stepped
    · cases stepped
    · rename_i urb found
      cases stepped
      cases present : state.present with
      | true => exact present
      | false => exact (complete_detached_keeps inv present found (owned urb.call)).elim
  | detach => trivial
  | reopen => trivial

/-- In every run, all is released exactly once if and only if the device serves every step. -/
theorem callOwned_iff_serves (echo : EchoTable Nat) (labels : List UsbLabel) :
    (usbMachine echo).Along (fun _ _ next => ∀ call, CallOwned next call) .opened labels ↔
      (usbMachine echo).Along (fun state label _ => UsbServes state label) .opened labels := by
  -- An opened device has made no call, so there is nothing to be owned.
  have initial : OwnInv (UsbState.opened : UsbState echo) :=
    { contexts := opened_inv
      held := fun urb member => by cases member
      vacant := fun i _ => echo.slot_fresh i
      owned := fun call => ⟨rfl, rfl, rfl⟩
      served := rfl }
  have keeps : ∀ state label next, OwnInv state → UsbServes state label →
      (usbMachine echo).step state label = some next →
      OwnInv next ∧ ∀ call, CallOwned next call := by
    intro state label next inv accepted stepped
    have kept := usbStep_own label inv accepted stepped
    exact ⟨kept, kept.owned⟩
  have breaks : ∀ state label next, OwnInv state → (∀ call, CallOwned next call) →
      (usbMachine echo).step state label = some next → UsbServes state label :=
    fun _ label _ inv owned stepped => usbServes_of_owned label inv owned stepped
  exact Machine.along_iff_condition keeps breaks labels _ initial

/-- The skb of one refused URB is freed twice. -/
theorem refusedUrb_not_owned :
    ¬ (usbMachine (.ofFunction Nat)).Along (fun _ _ next => ∀ call, CallOwned next call) .opened
      [.startXmit (preparedCall (.error .other))] := by
  -- One call whose URB is refused frees its skb with the echo slot and once more.
  intro along
  have owned := (along _ (Option.some_get (by decide)).symm).1 0
  have skb := owned.skb
  revert skb
  decide

end OpenwrtMisc.Mcp2515Usb
