import Mathlib.Data.List.Perm.Basic
import OpenwrtMisc.Mcp2515Usb.Xmit

/-! The transmit contexts of the mcp2515-usb driver account for its URBs while the device serves. -/

namespace OpenwrtMisc.Mcp2515Usb

variable {echo : EchoTable Nat}

/-- The contexts that are in use. -/
def busyContexts (state : UsbState echo) : List (Fin maxTxUrbs) :=
  (List.finRange maxTxUrbs).filter fun i => state.echoIndex i ≠ maxTxUrbs

/-- What is expected of the contexts, the counter and the queue after a step. -/
structure ContextsAccounted (state : UsbState echo) : Prop where
  active : ((busyContexts state).length : Int) = state.activeTxUrbs
  inFlight : (busyContexts state).length = state.inFlight.length
  distinct : ∀ i ∈ busyContexts state, ∀ j ∈ busyContexts state,
    state.echoIndex i = state.echoIndex j → i = j
  stopped : state.inFlight.length = maxTxUrbs → state.queueStopped = true
  /-- A call from an awake queue never ends at `nofreecontext`. -/
  available : state.queueStopped = false → freeContext state ≠ none

/-- The invariant of the contexts, as long as the device serves. -/
structure ContextInv (state : UsbState echo) : Prop where
  /-- The contexts in use are those of the URBs in flight, one each. -/
  busy : ∀ i, state.echoIndex i ≠ maxTxUrbs ↔ i ∈ state.inFlight.map TxUrb.context
  distinct : (state.inFlight.map TxUrb.context).Nodup
  index : ∀ i, state.echoIndex i ≠ maxTxUrbs → state.echoIndex i = i
  active : state.activeTxUrbs = state.inFlight.length
  stopped : state.inFlight.length = maxTxUrbs → state.queueStopped = true

/-- As many contexts are busy as a list of just those contexts is long. -/
theorem busyContexts_length {state : UsbState echo} {used : List (Fin maxTxUrbs)}
    (busy : ∀ i, state.echoIndex i ≠ maxTxUrbs ↔ i ∈ used) (distinct : used.Nodup) :
    (busyContexts state).length = used.length := by
  -- Both are lists without duplicates and of the same contexts.
  have nodup : (busyContexts state).Nodup := (List.nodup_finRange _).filter _
  have same : ∀ i, i ∈ busyContexts state ↔ i ∈ used := by
    intro i
    rw [← busy i, busyContexts, List.mem_filter]
    simp
  exact ((List.perm_ext_iff_of_nodup nodup distinct).mpr same).length_eq

/-- A context is among the busy ones when it is not marked as free. -/
theorem mem_busyContexts {state : UsbState echo} {i : Fin maxTxUrbs} :
    i ∈ busyContexts state ↔ state.echoIndex i ≠ maxTxUrbs := by
  -- The busy ones are filtered from all contexts.
  rw [busyContexts, List.mem_filter]
  simp

namespace ContextInv

variable {state : UsbState echo} (inv : ContextInv state)
include inv

/-- There are never more URBs in flight than contexts. -/
theorem length_le : state.inFlight.length ≤ maxTxUrbs := by
  -- The URBs in flight have different contexts.
  have length := busyContexts_length inv.busy inv.distinct
  have fewer : (busyContexts state).length ≤ (List.finRange maxTxUrbs).length :=
    List.length_filter_le _ _
  rw [length, List.length_map, List.length_finRange] at fewer
  exact fewer

/-- With less URBs in flight than contexts, one of the contexts is free. -/
theorem freeContext (room : state.inFlight.length ≠ maxTxUrbs) :
    Mcp2515Usb.freeContext state ≠ none := by
  intro none
  -- With all contexts taken, there would be as many URBs in flight as there are contexts.
  have all := freeContext_none.mp none
  have whole : busyContexts state = List.finRange maxTxUrbs :=
    List.filter_eq_self.mpr fun i _ => decide_eq_true (all i)
  have length := busyContexts_length inv.busy inv.distinct
  rw [whole, List.length_finRange, List.length_map] at length
  exact room length.symm

/-- The invariant gives everything that is expected of the contexts. -/
theorem accounted : ContextsAccounted state := by
  -- The busy contexts are those of the URBs in flight, one each.
  have length := busyContexts_length inv.busy inv.distinct
  rw [List.length_map] at length
  refine
    { active := by rw [length, inv.active]
      inFlight := length
      distinct := ?_
      stopped := inv.stopped
      available := ?_ }
  · intro i busyFirst j busySecond same
    rw [inv.index i (mem_busyContexts.mp busyFirst),
      inv.index j (mem_busyContexts.mp busySecond)] at same
    exact Fin.ext same
  · intro awake
    refine inv.freeContext fun full => ?_
    rw [inv.stopped full] at awake
    cases awake

/-- An awake queue has a free context. -/
theorem free_of_awake (awake : state.queueStopped = false) :
    ∃ i, Mcp2515Usb.freeContext state = some i :=
  Option.ne_none_iff_exists'.mp (inv.accounted.available awake)

end ContextInv

/-- Taking a free context makes that one busy as well. -/
theorem taken_busy {state : UsbState echo} {i : Fin maxTxUrbs} {used : List (Fin maxTxUrbs)}
    (busy : ∀ j, state.echoIndex j ≠ maxTxUrbs ↔ j ∈ used) (j : Fin maxTxUrbs) :
    Function.update state.echoIndex i (i : Nat) j ≠ maxTxUrbs ↔ j ∈ i :: used := by
  -- The context is the one that was taken, or another one.
  have inside := i.isLt
  rw [List.mem_cons, ← busy]
  by_cases same : j = i
  · subst same
    simp only [Function.update_self, true_or, iff_true]
    omega
  · simp [same]

/-- Submitting a URB takes one context for it. -/
theorem startXmit_sent_inv {state : UsbState echo} {i : Fin maxTxUrbs} (inv : ContextInv state)
    (free : freeContext state = some i) (call : Nat) (slots : echo.Slots) (calls : Nat)
    (busyCalls : List Nat) (log : List UsbEvent) :
    ContextInv
      { state with
        calls := calls
        busyCalls := busyCalls
        echoIndex := Function.update state.echoIndex i i
        slots := slots
        activeTxUrbs := state.activeTxUrbs + 1
        inFlight := ⟨call, i⟩ :: state.inFlight
        queueStopped :=
          if (maxTxUrbs : Int) ≤ state.activeTxUrbs + 1 then true else state.queueStopped
        log := log } := by
  -- The context is a free one, so no URB in flight has it.
  have unused : i ∉ state.inFlight.map TxUrb.context := fun member =>
    (inv.busy i).mpr member (freeContext_some free)
  refine
    { busy := taken_busy inv.busy
      distinct := List.nodup_cons.mpr ⟨unused, inv.distinct⟩
      index := ?_
      active := ?_
      stopped := ?_ }
  · intro j taken
    by_cases same : j = i
    · subst same
      exact Function.update_self _ _ _
    · simp only [Function.update_of_ne same] at taken ⊢
      exact inv.index j taken
  · simp only [inv.active, List.length_cons]
    omega
  · intro full
    -- The queue is stopped by the submission that takes the last context.
    have active := inv.active
    simp only [List.length_cons] at full
    rw [if_pos (by omega)]

/-- A URB that is taken out leaves the other URBs in flight. -/
theorem inFlight_perm {state : UsbState echo} {place : Nat} {urb : TxUrb}
    (found : state.inFlight[place]? = some urb) :
    state.inFlight.Perm (urb :: state.inFlight.eraseIdx place) := by
  -- The URB at that place is the one that is taken out.
  obtain ⟨inside, here⟩ := List.getElem?_eq_some_iff.mp found
  rw [← here]
  exact (List.getElem_cons_eraseIdx_perm inside).symm

/-- A completion on a present interface gives the context of its URB back. -/
theorem complete_inv {state : UsbState echo} {place : Nat} {urb : TxUrb}
    (inv : ContextInv state) (present : state.present = true)
    (found : state.inFlight[place]? = some urb) :
    ContextInv (writeIntCallback urb
      (UsbState.record [.urbReleased urb.call]
        { state with inFlight := state.inFlight.eraseIdx place })) := by
  have perm := inFlight_perm found
  -- The contexts of the other URBs are those of the list, without the one that is given back.
  have contexts := perm.map TxUrb.context
  have nodup := contexts.nodup_iff.mp inv.distinct
  simp only [List.map_cons, List.nodup_cons] at nodup
  have length := perm.length_eq
  simp only [List.length_cons] at length
  have bounded := inv.length_le
  simp only [writeIntCallback, UsbState.record, present, Bool.true_eq_false, if_false]
  refine
    { busy := ?_
      distinct := nodup.2
      index := ?_
      active := ?_
      stopped := ?_ }
  · intro j
    by_cases same : j = urb.context
    · subst same
      simpa using nodup.1
    · simp only [Function.update_of_ne same]
      rw [inv.busy j, contexts.mem_iff]
      simp [same]
  · intro j taken
    by_cases same : j = urb.context
    · subst same
      simp at taken
    · simp only [Function.update_of_ne same] at taken ⊢
      exact inv.index j taken
  · simp only [inv.active]
    omega
  · intro full
    simp only at full
    omega

/-- Closing the device frees the slots and touches nothing else but the log. -/
theorem closeCandev_frame (state : UsbState echo) :
    ∃ slots log, closeCandev state = { state with slots := slots, log := log } := by
  unfold closeCandev
  -- Each slot that is freed adds to the log, and the loop goes over all of them.
  induction List.range maxTxUrbs generalizing state with
  | nil => exact ⟨_, _, rfl⟩
  | cons i rest ih =>
    obtain ⟨slots, log, closed⟩ := ih { state.record (slotReleases echo state.slots i) with
      slots := echo.canFreeEchoSkb i state.slots }
    exact ⟨slots, log, by rw [List.foldl_cons, closed]; rfl⟩

/-- Closing and opening a device with no URB in flight leaves all contexts free. -/
theorem reopen_inv {state : UsbState echo} (quiet : state.inFlight = []) :
    ContextInv { closeCandev (unlinkAllUrbs state) with queueStopped := false } := by
  -- Closing empties the slots, and there was nothing in flight to be unlinked.
  obtain ⟨slots, log, closed⟩ := closeCandev_frame (unlinkAllUrbs state)
  rw [closed]
  exact
    { busy := fun i => by simp [unlinkAllUrbs, quiet]
      distinct := by simp [unlinkAllUrbs, quiet]
      index := fun i taken => (taken rfl).elim
      active := by simp [unlinkAllUrbs, quiet]
      stopped := fun full => by simp [unlinkAllUrbs, quiet, maxTxUrbs] at full }

/-- Detaching the interface touches none of the contexts. -/
theorem detach_inv {state : UsbState echo} (inv : ContextInv state) :
    ContextInv (netifDeviceDetach state) where
  busy := inv.busy
  distinct := inv.distinct
  index := inv.index
  active := inv.active
  -- A queue that was stopped stays stopped.
  stopped full := by simp [netifDeviceDetach, inv.stopped full]

/-- A step that the device serves keeps the contexts accounted for. -/
theorem usbStep_inv {state next : UsbState echo} (label : UsbLabel) (inv : ContextInv state)
    (accepted : UsbServes state label) (stepped : usbStep state label = some next) :
    ContextInv next := by
  -- One case for each step, and in it one for each way that the call can end.
  cases label with
  | startXmit outcome =>
    simp only [usbStep] at stepped
    split at stepped
    · rename_i awake
      cases stepped
      -- A call that lacks something returns early and leaves the contexts alone.
      by_cases prepared : outcome.Prepared
      · obtain ⟨i, free⟩ := inv.free_of_awake awake
        have submitted := accepted prepared.1 prepared.2.1 prepared.2.2
        rw [startXmit_sent prepared free submitted]
        exact startXmit_sent_inv inv free _ _ _ _ _
      · obtain ⟨events, _, early⟩ := startXmit_early state prepared
        rw [early]
        exact
          { busy := inv.busy
            distinct := inv.distinct
            index := inv.index
            active := inv.active
            stopped := inv.stopped }
    · cases stepped
  | complete place =>
    simp only [usbStep] at stepped
    split at stepped
    · cases stepped
    · rename_i urb found
      cases stepped
      exact complete_inv inv accepted found
  | detach =>
    simp only [usbStep] at stepped
    split at stepped
    · cases stepped
      exact detach_inv inv
    · cases stepped
  | reopen =>
    simp only [usbStep] at stepped
    split at stepped
    · rename_i quiet
      cases stepped
      exact reopen_inv quiet.1
    · cases stepped

/-- A refused URB leaves its context taken, with no URB in flight for it. -/
theorem startXmit_refused_leaks {state : UsbState echo} {outcome : XmitOutcome}
    {err : SubmitError} (inv : ContextInv state) (awake : state.queueStopped = false)
    (prepared : outcome.Prepared) (refused : outcome.submit = .error err) :
    (busyContexts (startXmit outcome state).1).length =
        (startXmit outcome state).1.inFlight.length + 1 := by
  obtain ⟨i, free⟩ := inv.free_of_awake awake
  have unused : i ∉ state.inFlight.map TxUrb.context := fun member =>
    (inv.busy i).mpr member (freeContext_some free)
  -- The context was taken before the submission, and the error path does not give it back.
  rw [startXmit_failed prepared free refused]
  rw [busyContexts_length (taken_busy inv.busy) (List.nodup_cons.mpr ⟨unused, inv.distinct⟩)]
  simp

/-- A completion on a detached interface keeps its context, with its URB gone. -/
theorem complete_detached_leaks {state : UsbState echo} {place : Nat} {urb : TxUrb}
    (inv : ContextInv state) (detached : state.present = false)
    (found : state.inFlight[place]? = some urb) :
    (busyContexts (writeIntCallback urb
        (UsbState.record [.urbReleased urb.call]
          { state with inFlight := state.inFlight.eraseIdx place }))).length =
      (state.inFlight.eraseIdx place).length + 1 := by
  -- The callback returns before it touches the contexts, so all of them are as busy as before.
  have length := (inFlight_perm found).length_eq
  have busy := busyContexts_length inv.busy inv.distinct
  rw [List.length_map, length, List.length_cons] at busy
  simp only [writeIntCallback, UsbState.record, detached, if_true]
  exact busy

/-- A step after which the contexts are accounted for is one that the device has served. -/
theorem usbServes_of_accounted {state next : UsbState echo} (label : UsbLabel)
    (inv : ContextInv state) (accounted : ContextsAccounted next)
    (stepped : usbStep state label = some next) : UsbServes state label := by
  -- A step that the device refuses leaves a context that no URB stands for.
  cases label with
  | startXmit outcome =>
    intro invalid urb buffer
    simp only [usbStep] at stepped
    split at stepped
    · rename_i awake
      cases stepped
      cases refused : outcome.submit with
      | ok _ => rfl
      | error err =>
        -- A refused URB leaves its context busy, without a URB in flight.
        have leaks := startXmit_refused_leaks inv awake ⟨invalid, urb, buffer⟩ refused
        have balanced := accounted.inFlight
        simp only [busyContexts] at leaks balanced
        omega
    · cases stepped
  | complete place =>
    simp only [usbStep] at stepped
    split at stepped
    · cases stepped
    · rename_i urb found
      cases stepped
      cases present : state.present with
      | true => exact present
      | false =>
        -- The URB is gone, and its context is still busy.
        have leaks := complete_detached_leaks inv present found
        have balanced := accounted.inFlight
        simp only [writeIntCallback, UsbState.record, present, if_true] at leaks balanced
        omega
  | detach => trivial
  | reopen => trivial

/-- A device that was just opened has all contexts free. -/
theorem opened_inv : ContextInv (UsbState.opened : UsbState echo) where
  busy i := by simp [UsbState.opened]
  -- Every context is marked as free.
  distinct := List.nodup_nil
  index _ taken := (taken rfl).elim
  active := rfl
  stopped full := by simp [UsbState.opened, maxTxUrbs] at full

/--
In every run, the contexts are accounted for if and only if the device serves every step.

A refused submission and a completion on a detached interface both keep a context for good.
-/
theorem contextsAccounted_iff_serves (echo : EchoTable Nat) (labels : List UsbLabel) :
    (usbMachine echo).Along (fun _ _ next => ContextsAccounted next) .opened labels ↔
      (usbMachine echo).Along (fun state label _ => UsbServes state label) .opened labels := by
  -- The first step that is not served breaks the account, and until then it holds.
  have keeps : ∀ state label next, ContextInv state → UsbServes state label →
      (usbMachine echo).step state label = some next →
      ContextInv next ∧ ContextsAccounted next := by
    intro state label next inv accepted stepped
    have kept := usbStep_inv label inv accepted stepped
    exact ⟨kept, kept.accounted⟩
  have breaks : ∀ state label next, ContextInv state → ContextsAccounted next →
      (usbMachine echo).step state label = some next → UsbServes state label :=
    fun _ label _ inv accounted stepped => usbServes_of_accounted label inv accounted stepped
  exact Machine.along_iff_condition keeps breaks labels _ opened_inv

/-- A call that finds everything it needs, up to the result of `usb_submit_urb`. -/
def preparedCall (submit : Except SubmitError Unit) : XmitOutcome where
  invalid := false
  urb := true
  buffer := true
  submit := submit

/-- One refused URB leaves a context taken for good. -/
theorem refusedUrb_not_accounted :
    ¬ (usbMachine (.ofFunction Nat)).Along (fun _ _ next => ContextsAccounted next) .opened
      [.startXmit (preparedCall (.error .other))] := by
  -- One call whose URB is refused keeps its context busy.
  intro along
  have accounted := (along _ (Option.some_get (by decide)).symm).1
  have balanced := accounted.inFlight
  revert balanced
  decide

end OpenwrtMisc.Mcp2515Usb
