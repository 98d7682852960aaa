import Mathlib.Data.List.FinRange
import OpenwrtMisc.Kernel.EchoTable
import OpenwrtMisc.Lib.Machine

/-! The transmit path of the mcp2515-usb driver: its contexts, its URBs and who owns what. -/

namespace OpenwrtMisc.Mcp2515Usb

/-- `MAX_TX_URBS`, which also marks a transmit context as free. -/
def maxTxUrbs : Nat := 20

/-- The results of a transmit function. -/
inductive NetdevTx where
  | ok
  | busy
  deriving DecidableEq, Repr

/-- The errors of `usb_submit_urb`, as far as the driver tells them apart. -/
inductive SubmitError where
  | noDev
  | other
  deriving DecidableEq, Repr

/-- What a call obtained and released, by the number of the call. -/
inductive UsbEvent where
  | skbReleased (call : Nat)
  | urbObtained (call : Nat)
  | urbReleased (call : Nat)
  | bufferObtained (call : Nat)
  | bufferReleased (call : Nat)
  deriving DecidableEq, Repr

/-- A submitted URB, with the call that submitted it and the context that it points to. -/
structure TxUrb where
  call : Nat
  context : Fin maxTxUrbs
  deriving DecidableEq, Repr

/--
The state of one device.

The skb of a call is named by the number of that call.
`calls`, `busyCalls` and `log` only record what happened.
-/
structure UsbState (echo : EchoTable Nat) where
  /-- The fields `echo_index` of `priv->tx_contexts`. -/
  echoIndex : Fin maxTxUrbs → Nat
  activeTxUrbs : Int
  /-- `netif_device_present`. -/
  present : Bool
  queueStopped : Bool
  slots : echo.Slots
  /-- The URBs whose completion is still to come. -/
  inFlight : List TxUrb
  /-- The number of calls of `mcp2515dm_bm_start_xmit`. -/
  calls : Nat
  /-- The calls that returned `NETDEV_TX_BUSY`. -/
  busyCalls : List Nat
  log : List UsbEvent

/-- What the allocations and the submission return to one call, and whether its skb is invalid. -/
structure XmitOutcome where
  invalid : Bool
  urb : Bool
  buffer : Bool
  submit : Except SubmitError Unit

variable {echo : EchoTable Nat}

/-- The device after `mcp2515dm_bm_probe` and its first open. -/
def UsbState.opened : UsbState echo where
  echoIndex _ := maxTxUrbs
  activeTxUrbs := 0
  present := true
  queueStopped := false
  slots := echo.fresh
  inFlight := []
  calls := 0
  busyCalls := []
  log := []

/-- Adds to what the calls obtained and released. -/
def UsbState.record (events : List UsbEvent) (state : UsbState echo) : UsbState echo :=
  { state with log := events ++ state.log }

/-- The release of the skb in an echo slot, if there is one. -/
def slotReleases (echo : EchoTable Nat) (slots : echo.Slots) (index : Nat) : List UsbEvent :=
  (echo.slot slots index).toList.map .skbReleased

/-- The loop of `mcp2515dm_bm_start_xmit` that looks for a free context. -/
def freeContext (state : UsbState echo) : Option (Fin maxTxUrbs) :=
  (List.finRange maxTxUrbs).find? fun i => state.echoIndex i == maxTxUrbs

/-- The label `nomem` of `mcp2515dm_bm_start_xmit`. -/
def nomem (call : Nat) (state : UsbState echo) : UsbState echo :=
  state.record [.skbReleased call]

/-- The label `nomembuf`, which falls through to `nomem`. -/
def nomembuf (call : Nat) (state : UsbState echo) : UsbState echo :=
  nomem call (state.record [.urbReleased call])

/-- `netif_device_detach`, which stops the queue of an interface that was present. -/
def netifDeviceDetach (state : UsbState echo) : UsbState echo :=
  { state with present := false, queueStopped := state.present || state.queueStopped }

/-- The label `failed`, which falls through to `nomembuf`. -/
def failed (call : Nat) (i : Fin maxTxUrbs) (err : SubmitError) (state : UsbState echo) :
    UsbState echo :=
  let state :=
    { state.record (slotReleases echo state.slots i) with
      slots := echo.canFreeEchoSkb i state.slots }
  -- `usb_unanchor_urb` gives the reference of the anchor back.
  let state := state.record [.urbReleased call, .bufferReleased call]
  let state := { state with activeTxUrbs := state.activeTxUrbs - 1 }
  nomembuf call
    (match err with
    | .noDev => netifDeviceDetach state
    | .other => state)

/-- `mcp2515dm_bm_start_xmit`. -/
def startXmit (outcome : XmitOutcome) (state : UsbState echo) : UsbState echo × NetdevTx :=
  let call := state.calls
  let state := { state with calls := call + 1 }
  -- `can_dropped_invalid_skb` frees the skb that it drops.
  if outcome.invalid then (state.record [.skbReleased call], .ok)
  else if outcome.urb = false then (nomem call state, .ok)
  else
    let state := state.record [.urbObtained call]
    if outcome.buffer = false then (nomembuf call state, .ok)
    else
      let state := state.record [.bufferObtained call]
      match freeContext state with
      | none => (state.record [.bufferReleased call, .urbReleased call], .busy)
      | some i =>
        let state := { state with echoIndex := Function.update state.echoIndex i i }
        -- `usb_anchor_urb` takes a reference of its own.
        let state := state.record [.urbObtained call]
        let state :=
          { state with
            slots := echo.canPutEchoSkb call i state.slots
            activeTxUrbs := state.activeTxUrbs + 1 }
        match outcome.submit with
        | .error err => (failed call i err state, .ok)
        | .ok () =>
          let state := { state with inFlight := ⟨call, i⟩ :: state.inFlight }
          let state :=
            { state with
              queueStopped :=
                if (maxTxUrbs : Int) ≤ state.activeTxUrbs then true else state.queueStopped }
          (state.record [.urbReleased call], .ok)

/-- `mcp2515dm_bm_write_int_callback`. -/
def writeIntCallback (urb : TxUrb) (state : UsbState echo) : UsbState echo :=
  let state := state.record [.bufferReleased urb.call]
  let state := { state with activeTxUrbs := state.activeTxUrbs - 1 }
  if state.present = false then state
  else
    let index := state.echoIndex urb.context
    { state.record (slotReleases echo state.slots index) with
      slots := echo.canGetEchoSkb index state.slots
      echoIndex := Function.update state.echoIndex urb.context maxTxUrbs
      queueStopped := false }

/-- `unlink_all_urbs`, once the completions of all killed URBs have run. -/
def unlinkAllUrbs (state : UsbState echo) : UsbState echo :=
  { state with activeTxUrbs := 0, echoIndex := fun _ => maxTxUrbs }

/-- `close_candev`, which frees what is left in the echo slots. -/
def closeCandev (state : UsbState echo) : UsbState echo :=
  (List.range maxTxUrbs).foldl (fun state i =>
    { state.record (slotReleases echo state.slots i) with
      slots := echo.canFreeEchoSkb i state.slots }) state

/-- The steps of the device. -/
inductive UsbLabel where
  | startXmit (outcome : XmitOutcome)
  /-- The USB core gives back the URB at this place of the list. -/
  | complete (place : Nat)
  /-- `mcp2515dm_bm_read_int_callback` finds no device to submit its URB to again. -/
  | detach
  /-- `mcp2515dm_bm_close` and a successful `mcp2515dm_bm_open` after it. -/
  | reopen

/-- One step of the device, `none` when it cannot be taken now. -/
def usbStep (state : UsbState echo) : UsbLabel → Option (UsbState echo)
  | .startXmit outcome =>
    if state.queueStopped = false then
      let (next, ret) := startXmit outcome state
      some { next with
        busyCalls := if ret = .busy then state.calls :: next.busyCalls else next.busyCalls }
    else none
  | .complete place =>
    match state.inFlight[place]? with
    | none => none
    | some urb =>
      -- The core takes the URB off its anchor before it calls back.
      let state := { state with inFlight := state.inFlight.eraseIdx place }
      some (writeIntCallback urb (state.record [.urbReleased urb.call]))
  | .detach => if state.present = true then some (netifDeviceDetach state) else none
  | .reopen =>
    if state.inFlight = [] ∧ state.present = true then
      some { closeCandev (unlinkAllUrbs state) with queueStopped := false }
    else none

/-- The machine of a device. -/
def usbMachine (echo : EchoTable Nat) : Machine (UsbState echo) UsbLabel where
  start := .opened
  step := usbStep

/--
The device takes what is sent to it, and is still there when it is done with it.

A call that gets as far as `usb_submit_urb` finds it to succeed.
A completion finds the interface present, which the receive path may have detached.
-/
def UsbServes (state : UsbState echo) (label : UsbLabel) : Prop :=
  match label with
  | .startXmit outcome =>
    outcome.invalid = false → outcome.urb = true → outcome.buffer = true → outcome.submit = .ok ()
  | .complete _ => state.present = true
  | _ => True

/-- A free context is found exactly when there is one, and it is free. -/
theorem freeContext_some {state : UsbState echo} {i : Fin maxTxUrbs}
    (found : freeContext state = some i) : state.echoIndex i = maxTxUrbs := by
  -- The search stops at a context that is marked as free.
  have marked := List.find?_some found
  simpa using marked

/-- No free context is found exactly when all contexts are busy. -/
theorem freeContext_none {state : UsbState echo} :
    freeContext state = none ↔ ∀ i, state.echoIndex i ≠ maxTxUrbs := by
  -- The search goes through all contexts.
  rw [freeContext, List.find?_eq_none]
  simp

/-- Whether a call gets as far as the search for a context. -/
def XmitOutcome.Prepared (outcome : XmitOutcome) : Prop :=
  outcome.invalid = false ∧ outcome.urb = true ∧ outcome.buffer = true

/-- A call that ends before it needs a context releases its skb, and the URB if it has one. -/
theorem startXmit_early {outcome : XmitOutcome} (state : UsbState echo)
    (early : ¬ outcome.Prepared) :
    ∃ events, (events = [.skbReleased state.calls] ∨
        events = [.skbReleased state.calls, .urbReleased state.calls, .urbObtained state.calls]) ∧
      startXmit outcome state =
        ({ state with calls := state.calls + 1, log := events ++ state.log }, .ok) := by
  -- The three early returns are tried in the order of the code.
  cases invalid : outcome.invalid with
  | true => exact ⟨_, Or.inl rfl, by simp [startXmit, UsbState.record, invalid]⟩
  | false =>
    cases urb : outcome.urb with
    | false => exact ⟨_, Or.inl rfl, by simp [startXmit, nomem, UsbState.record, invalid, urb]⟩
    | true =>
      cases buffer : outcome.buffer with
      | false =>
        exact ⟨_, Or.inr rfl,
          by simp [startXmit, nomembuf, nomem, UsbState.record, invalid, urb, buffer]⟩
      | true => exact (early ⟨invalid, urb, buffer⟩).elim

/-- A call whose URB is submitted. -/
theorem startXmit_sent {outcome : XmitOutcome} {state : UsbState echo} {i : Fin maxTxUrbs}
    (prepared : outcome.Prepared) (free : freeContext state = some i)
    (submitted : outcome.submit = .ok ()) :
    startXmit outcome state =
      ({ state with
          calls := state.calls + 1
          echoIndex := Function.update state.echoIndex i i
          slots := echo.canPutEchoSkb state.calls i state.slots
          activeTxUrbs := state.activeTxUrbs + 1
          inFlight := ⟨state.calls, i⟩ :: state.inFlight
          queueStopped :=
            if (maxTxUrbs : Int) ≤ state.activeTxUrbs + 1 then true else state.queueStopped
          log := [.urbReleased state.calls, .urbObtained state.calls, .bufferObtained state.calls,
            .urbObtained state.calls] ++ state.log }, .ok) := by
  -- No allocation fails and a context is found, so the call goes on to the submission.
  obtain ⟨invalid, urb, buffer⟩ := prepared
  simp only [freeContext] at free
  simp only [startXmit, UsbState.record, freeContext, invalid, urb, buffer, free, submitted,
    Bool.false_eq_true, Bool.true_eq_false, if_false, List.cons_append, List.nil_append]
  rfl

/-- A call whose URB is not submitted ends as without a buffer, with the context still taken. -/
theorem startXmit_failed {outcome : XmitOutcome} {state : UsbState echo} {i : Fin maxTxUrbs}
    {err : SubmitError} (prepared : outcome.Prepared) (free : freeContext state = some i)
    (refused : outcome.submit = .error err) :
    startXmit outcome state =
      ({ state with
          calls := state.calls + 1
          echoIndex := Function.update state.echoIndex i i
          slots := echo.canFreeEchoSkb i (echo.canPutEchoSkb state.calls i state.slots)
          present := if err = .noDev then false else state.present
          queueStopped :=
            if err = .noDev then state.present || state.queueStopped else state.queueStopped
          log := [.skbReleased state.calls, .urbReleased state.calls, .urbReleased state.calls,
              .bufferReleased state.calls] ++
            slotReleases echo (echo.canPutEchoSkb state.calls i state.slots) i ++
            [.urbObtained state.calls, .bufferObtained state.calls, .urbObtained state.calls] ++
            state.log }, .ok) := by
  obtain ⟨invalid, urb, buffer⟩ := prepared
  -- Both kinds of error leave through the same label, and one also detaches the device.
  simp only [freeContext] at free
  simp only [startXmit, failed, nomembuf, nomem, netifDeviceDetach, UsbState.record, freeContext,
    invalid, urb, buffer, free, refused, Bool.false_eq_true, Bool.true_eq_false, if_false]
  cases err <;> simp

end OpenwrtMisc.Mcp2515Usb
