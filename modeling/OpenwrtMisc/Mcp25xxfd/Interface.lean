import OpenwrtMisc.Mcp25xxfd.Setup

/-! Interface cycles of the mcp25xxfd driver, over which its FIFO and transmit masks survive. -/

namespace OpenwrtMisc.Mcp25xxfd

open BitMask

variable {echo : EchoTable Nat}

/-- The parts of `priv` that live from one interface cycle to the next. -/
structure InterfaceState (echo : EchoTable Nat) where
  /-- The transmit path, of which only the masks and the slots count while the interface is down. -/
  tx : TxState echo
  /-- `priv->fifos.tx_fifo_mask`. -/
  txFifoMask : BitVec 32
  /-- `priv->fifos.rx_fifo_mask`. -/
  rxFifoMask : BitVec 32
  /-- While the interface is up, the split of its FIFOs and the address of its TEF. -/
  up : Option (FifoSplit × Nat)

/-- The number of echo slots of a device, `TX_ECHO_SKB_MAX`. -/
def txEchoSkbMax : Nat := 32

/-- `close_candev`, which frees what is left in the echo slots. -/
def closeCandev (state : TxState echo) : TxState echo :=
  { state with
    slots := (List.range txEchoSkbMax).foldl (fun slots i => echo.canFreeEchoSkb i slots)
      state.slots }

/-- `mcp25xxfd_clean`, which tests the bits from 0 on and always frees slot 0. -/
def clean (txFifos : Nat) (state : TxState echo) : TxState echo :=
  { state with
    slots := (List.range txFifos).foldl (fun slots i =>
      if state.txPendingMask.getLsbD i then echo.canFreeEchoSkb 0 slots else slots) state.slots
    txPendingMask := 0 }

/-- The transmit path after a successful `mcp25xxfd_open`, which resets the FIFOs of the chip. -/
def reopened (layout : TxLayout) (state : TxState echo) : TxState echo :=
  { (TxState.opened layout : TxState echo) with
    txSubmittedMask := state.txSubmittedMask
    txPendingMask := state.txPendingMask
    txPendingMaskInIrq := state.txPendingMaskInIrq
    txProcessedMask := state.txProcessedMask
    slots := state.slots }

/-- `mcp25xxfd_open`, with the loops of `mcp25xxfd_setup_fifo` that collect the FIFO masks. -/
def ifOpen (txFifosParam mtu tefua : Nat) (outcome : OpenOutcome) (state : InterfaceState echo) :
    InterfaceState echo :=
  if outcome.before then
    match splitFifos txFifosParam mtu with
    | none => state
    | some split =>
      let tx := collectFifos outcome.txFifo split.txOrder state.txFifoMask
      if tx.2 then
        let rx := collectFifos outcome.rxFifo split.rxOrder state.rxFifoMask
        if rx.2 && outcome.after then
          { tx := reopened (split.layout tefua) state.tx
            txFifoMask := tx.1
            rxFifoMask := rx.1
            up := some (split, tefua) }
        else { state with txFifoMask := tx.1, rxFifoMask := rx.1 }
      else { state with txFifoMask := tx.1 }
  else state

/-- `mcp25xxfd_stop`, once the queue, the interrupt thread and the SPI engine are quiet. -/
def ifStop (txFifos : Nat) (state : InterfaceState echo) : InterfaceState echo :=
  { state with tx := clean txFifos (closeCandev state.tx), up := none }

/-- The steps of an interface over its cycles. -/
inductive InterfaceLabel where
  | ifOpen (txFifosParam mtu tefua : Nat) (outcome : OpenOutcome)
  | transmit (label : TxLabel)
  | ifStop

/-- One step of the interface, `none` when it cannot be taken now. -/
def interfaceStep (state : InterfaceState echo) : InterfaceLabel → Option (InterfaceState echo)
  | .ifOpen txFifosParam mtu tefua outcome =>
    match state.up with
    | none => some (ifOpen txFifosParam mtu tefua outcome state)
    | some _ => none
  | .transmit label =>
    match state.up with
    | none => none
    | some (split, tefua) =>
      (txStep (split.layout tefua) state.txFifoMask state.tx label).map fun tx =>
        { state with tx := tx }
  | .ifStop =>
    match state.up with
    | none => none
    | some (split, _) =>
      -- The call waits for xmit and the interrupt thread, and its own transfers for the SPI queue.
      if state.tx.xmit = .idle ∧ state.tx.ist = .idle ∧ state.tx.spiQueue = [] ∧
          state.tx.spiCompleting = none then
        some (ifStop split.txFifos state)
      else none

/-- The interface after `alloc_candev`, with all masks zero and all echo slots empty. -/
def InterfaceState.probed : InterfaceState echo where
  -- Nothing but the masks and the slots is read before the first open has set it.
  tx := TxState.opened classicLayout
  txFifoMask := 0
  rxFifoMask := 0
  up := none

/-- The machine of the interface. -/
def interfaceMachine (echo : EchoTable Nat) : Machine (InterfaceState echo) InterfaceLabel where
  start := .probed
  step := interfaceStep

/-- What is expected of the masks after a successful `mcp25xxfd_open`. -/
def OpenedClean (_ : InterfaceState echo) (label : InterfaceLabel) (next : InterfaceState echo) :
    Prop :=
  match label with
  | .ifOpen .. =>
    ∀ split tefua, next.up = some (split, tefua) →
      next.txFifoMask = span split.txFifoStart split.txFifos ∧
      next.rxFifoMask = span split.rxFifoStart split.rxFifos ∧
      next.tx.txSubmittedMask = 0 ∧ next.tx.txPendingMask = 0 ∧ next.tx.txProcessedMask = 0
  | _ => True

/-- Whether the transfers of a `mcp25xxfd_open` that splits the FIFOs so all succeed. -/
def OpenOutcome.ok (outcome : OpenOutcome) (split : FifoSplit) : Prop :=
  outcome.before = true ∧ (∀ fifo ∈ split.txOrder, outcome.txFifo fifo = true) ∧
    (∀ fifo ∈ split.rxOrder, outcome.rxFifo fifo = true) ∧ outcome.after = true

/--
A successful open finds no frame of an earlier cycle, and no FIFO of an earlier split elsewhere.

The FIFOs that earlier opens set up are still in the two masks.
-/
def OpenFindsIdle (state : InterfaceState echo) (label : InterfaceLabel) : Prop :=
  match label with
  | .ifOpen txFifosParam mtu _ outcome =>
    ∀ split, splitFifos txFifosParam mtu = some split → outcome.ok split →
      state.tx.txSubmittedMask = 0 ∧ Subset state.txFifoMask split.txFifoMask ∧
        Subset state.rxFifoMask split.rxFifoMask
  | _ => True

/-- What is known of the masks between and within cycles, as long as every open finds it idle. -/
def InterfaceInv (state : InterfaceState echo) : Prop :=
  match state.up with
  | none => state.tx.txPendingMask = 0 ∧ Subset state.tx.txProcessedMask state.tx.txSubmittedMask
  | some (split, tefua) =>
    TxInv (split.layout tefua) state.tx ∧ state.txFifoMask = (split.layout tefua).txFifoMask

/-- The FIFOs of both kinds have their bits in the masks. -/
theorem FifoSplit.order_inside (split : FifoSplit) :
    (∀ fifo ∈ split.txOrder, fifo < 32) ∧ (∀ fifo ∈ split.rxOrder, fifo < 32) := by
  -- Both orders go through consecutive FIFOs below 32.
  have inMask := split.inMask
  have rxFirst := split.rxFirst
  constructor <;> intro fifo member
  · simp only [FifoSplit.txOrder, List.mem_range'_1] at member
    omega
  · simp only [FifoSplit.rxOrder, List.mem_reverse, List.mem_range'_1] at member
    omega

/-- The transmit FIFOs, as the loop visits them. -/
theorem FifoSplit.mem_txOrder (split : FifoSplit) (fifo : Nat) :
    fifo ∈ split.txOrder ↔ split.txFifoMask.getLsbD fifo = true := by
  -- The mask has the FIFOs of the order.
  have inMask := split.inMask
  rw [FifoSplit.txFifoMask, getLsbD_span, FifoSplit.txOrder, List.mem_range'_1]
  omega

/-- The receive FIFOs, as the loop visits them. -/
theorem FifoSplit.mem_rxOrder (split : FifoSplit) (fifo : Nat) :
    fifo ∈ split.rxOrder ↔ split.rxFifoMask.getLsbD fifo = true := by
  rw [split.getLsbD_rxFifoMask, FifoSplit.rxOrder, List.mem_reverse, List.mem_range'_1]

/-- A loop adds no bits but those of its FIFOs, whether it completes or not. -/
theorem collectFifos_subset (written : Nat → Bool) {fifos : List Nat} {mask all : BitVec 32}
    (listed : ∀ fifo, fifo ∈ fifos ↔ all.getLsbD fifo = true) (inside : ∀ fifo ∈ fifos, fifo < 32)
    (included : Subset mask all) : Subset (collectFifos written fifos mask).1 all := by
  -- A bit was set before, or belongs to a FIFO of the loop.
  refine subset_iff.mpr fun fifo set => ?_
  rcases (collectFifos_bits written fifos mask inside fifo).2 set with before | member
  · exact subset_iff.mp included fifo before
  · exact (listed fifo).mp member

/-- A completed loop leaves just the bits of its FIFOs if and only if it found no others. -/
theorem collectFifos_eq_iff {written : Nat → Bool} {fifos : List Nat} (mask : BitVec 32)
    {all : BitVec 32} (listed : ∀ fifo, fifo ∈ fifos ↔ all.getLsbD fifo = true)
    (inside : ∀ fifo ∈ fifos, fifo < 32) (done : (collectFifos written fifos mask).2 = true) :
    (collectFifos written fifos mask).1 = all ↔ Subset mask all := by
  -- The loop adds all of its FIFOs, and takes nothing away.
  have bits := collectFifos_bits written fifos mask inside
  constructor
  · intro same
    exact subset_iff.mpr fun fifo set => same ▸ (bits fifo).1 set
  · intro included
    refine ext fun fifo => Bool.eq_iff_iff.mpr ⟨fun set => ?_, fun set => ?_⟩
    · exact subset_iff.mp (collectFifos_subset written listed inside included) fifo set
    · exact collectFifos_done fifos mask done inside fifo ((listed fifo).mpr set)

/-- A loop completes if and only if all its transfers succeed. -/
theorem collectFifos_completes (written : Nat → Bool) :
    ∀ fifos mask, (collectFifos written fifos mask).2 = true ↔
      ∀ fifo ∈ fifos, written fifo = true := by
  intro fifos
  induction fifos with
  | nil => simp [collectFifos]
  | cons head rest ih =>
    intro mask
    simp only [collectFifos]
    -- The loop ends at the first transfer that fails, and goes on otherwise.
    by_cases ok : written head = true
    · simp [ok, ih]
    · simp [ok]

/-- What an open does: it fails and touches the FIFO masks only, or it succeeds. -/
theorem ifOpen_cases (txFifosParam mtu tefua : Nat) (outcome : OpenOutcome)
    (state : InterfaceState echo) (down : state.up = none) :
    ((ifOpen txFifosParam mtu tefua outcome state).up = none ∧
      (ifOpen txFifosParam mtu tefua outcome state).tx = state.tx ∧
      ∀ split, splitFifos txFifosParam mtu = some split → ¬ outcome.ok split) ∨
    ∃ split, splitFifos txFifosParam mtu = some split ∧ outcome.ok split ∧
      ifOpen txFifosParam mtu tefua outcome state =
        { tx := reopened (split.layout tefua) state.tx
          txFifoMask := (collectFifos outcome.txFifo split.txOrder state.txFifoMask).1
          rxFifoMask := (collectFifos outcome.rxFifo split.rxOrder state.rxFifoMask).1
          up := some (split, tefua) } := by
  unfold ifOpen
  -- Each stage that fails ends the call, and no stage before the last one touches the path.
  by_cases before : outcome.before = true
  · cases found : splitFifos txFifosParam mtu with
    | none => simp [before, down]
    | some split =>
      have txDone := collectFifos_completes outcome.txFifo split.txOrder state.txFifoMask
      have rxDone := collectFifos_completes outcome.rxFifo split.rxOrder state.rxFifoMask
      by_cases tx : (collectFifos outcome.txFifo split.txOrder state.txFifoMask).2 = true
      · by_cases rx : (collectFifos outcome.rxFifo split.rxOrder state.rxFifoMask).2 = true
        · by_cases after : outcome.after = true
          · exact Or.inr ⟨split, rfl, ⟨before, txDone.mp tx, rxDone.mp rx, after⟩,
              by simp [before, tx, rx, after]⟩
          · refine Or.inl ⟨by simp [before, tx, after, down], by simp [before, tx, after], ?_⟩
            rintro _ ⟨rfl⟩ ok
            exact after ok.2.2.2
        · refine Or.inl ⟨by simp [before, tx, rx, down], by simp [before, tx, rx], ?_⟩
          rintro _ ⟨rfl⟩ ok
          exact rx (rxDone.mpr ok.2.2.1)
      · refine Or.inl ⟨by simp [before, tx, down], by simp [before, tx], ?_⟩
        rintro _ ⟨rfl⟩ ok
        exact tx (txDone.mpr ok.2.1)
  · refine Or.inl ⟨by simp [before, down], by simp [before], fun split _ ok => before ok.1⟩

/-- A successful open leaves the masks as expected if and only if it finds them idle. -/
theorem ifOpen_clean_iff {split : FifoSplit} (tefua : Nat) {outcome : OpenOutcome}
    {state : InterfaceState echo} (ok : outcome.ok split)
    (inv : state.tx.txPendingMask = 0 ∧ Subset state.tx.txProcessedMask state.tx.txSubmittedMask) :
    ((collectFifos outcome.txFifo split.txOrder state.txFifoMask).1 = split.txFifoMask ∧
      (collectFifos outcome.rxFifo split.rxOrder state.rxFifoMask).1 = split.rxFifoMask ∧
      (reopened (split.layout tefua) state.tx).txSubmittedMask = 0 ∧
      (reopened (split.layout tefua) state.tx).txPendingMask = 0 ∧
      (reopened (split.layout tefua) state.tx).txProcessedMask = 0) ↔
    (state.tx.txSubmittedMask = 0 ∧ Subset state.txFifoMask split.txFifoMask ∧
      Subset state.rxFifoMask split.rxFifoMask) := by
  -- The loops of the setup add the bits of their FIFOs to what the masks had.
  have tx := collectFifos_eq_iff state.txFifoMask split.mem_txOrder split.order_inside.1
    ((collectFifos_completes _ _ _).mpr ok.2.1)
  have rx := collectFifos_eq_iff state.rxFifoMask split.mem_rxOrder split.order_inside.2
    ((collectFifos_completes _ _ _).mpr ok.2.2.1)
  rw [tx, rx]
  -- The processed frames are among the submitted ones, and the stop cleared the pending ones.
  constructor
  · intro given
    rcases given with ⟨txIn, rxIn, submitted, _, _⟩
    exact ⟨submitted, txIn, rxIn⟩
  · intro given
    rcases given with ⟨submitted, txIn, rxIn⟩
    refine ⟨txIn, rxIn, submitted, inv.1, ?_⟩
    have included := inv.2
    rw [submitted] at included
    exact subset_zero.mp included

/-- A transmit path that starts with clear masks satisfies its invariant. -/
theorem reopened_inv {layout : TxLayout} {state : TxState echo}
    (submitted : state.txSubmittedMask = 0) (pending : state.txPendingMask = 0)
    (processed : state.txProcessedMask = 0) : TxInv layout (reopened layout state) := by
  have opened : TxInv layout (TxState.opened layout : TxState echo) := txInv_opened layout
  -- The copy of the pending mask and the slots are the only fields that may differ.
  have same : reopened layout state = { (TxState.opened layout : TxState echo) with
      txPendingMaskInIrq := state.txPendingMaskInIrq, slots := state.slots } := by
    simp only [reopened, submitted, pending, processed]
    rfl
  rw [same]
  exact
    { submitted := opened.submitted
      placed := opened.placed
      pending := opened.pending
      completing := opened.completing
      stopped := opened.stopped
      address := opened.address
      tefIndex := opened.tefIndex
      ist := trivial }

/-- The processed frames of a batch are among the submitted ones. -/
theorem TxInv.processed_submitted {layout : TxLayout} {state : TxState echo}
    (inv : TxInv layout state) : Subset state.txProcessedMask state.txSubmittedMask := by
  -- A processed frame is found at one place, which a frame that was not submitted has not.
  refine subset_iff.mpr fun fifo processed => ?_
  have placed := inv.placed fifo
  simp only [TxState.places, processed, Bool.toNat_true] at placed
  have once := Bool.toNat_le (state.txSubmittedMask.getLsbD fifo)
  exact Bool.toNat_eq_one.mp (by omega)

/-- Every step that finds the masks idle when it opens leaves them as expected. -/
theorem interfaceStep_clean {state next : InterfaceState echo} (label : InterfaceLabel)
    (inv : InterfaceInv state) (idle : OpenFindsIdle state label)
    (stepped : interfaceStep state label = some next) :
    InterfaceInv next ∧ OpenedClean state label next := by
  -- The cases are the open and the stop, and the steps while the interface is up.
  cases label with
  | ifOpen txFifosParam mtu tefua outcome =>
    simp only [interfaceStep] at stepped
    split at stepped
    · rename_i down
      simp only [InterfaceInv, down] at inv
      cases stepped
      -- An open that fails leaves the interface down, with the masks as they were.
      rcases ifOpen_cases txFifosParam mtu tefua outcome state down with
        ⟨failed, same, _⟩ | ⟨split, found, ok, opened⟩
      · refine ⟨?_, fun split tefua up => ?_⟩
        · simp only [InterfaceInv, failed, same]
          exact inv
        · rw [failed] at up
          cases up
      · have clean := (ifOpen_clean_iff tefua ok inv).mpr (idle split found ok)
        rw [opened]
        refine ⟨⟨reopened_inv clean.2.2.1 clean.2.2.2.1 clean.2.2.2.2, clean.1⟩, ?_⟩
        rintro _ _ ⟨rfl⟩
        exact clean
    · cases stepped
  | transmit label =>
    simp only [interfaceStep] at stepped
    split at stepped
    · cases stepped
    · rename_i split tefua up
      simp only [InterfaceInv, up] at inv
      obtain ⟨tx, moved, same⟩ := Option.map_eq_some_iff.mp stepped
      subst same
      rw [inv.2] at moved
      have kept := txStep_inv label inv.1 moved
      refine ⟨?_, trivial⟩
      simp only [InterfaceInv, up]
      exact ⟨kept, inv.2⟩
  | ifStop =>
    simp only [interfaceStep] at stepped
    split at stepped
    · cases stepped
    · rename_i split tefua up
      simp only [InterfaceInv, up] at inv
      split at stepped
      · cases stepped
        exact ⟨⟨rfl, inv.1.processed_submitted⟩, trivial⟩
      · cases stepped

/-- A step that opens with clean masks has found them idle. -/
theorem openFindsIdle_of_clean {state next : InterfaceState echo} (label : InterfaceLabel)
    (inv : InterfaceInv state) (clean : OpenedClean state label next)
    (stepped : interfaceStep state label = some next) : OpenFindsIdle state label := by
  -- The cases are the open and the stop, and the steps while the interface is up.
  cases label with
  | ifOpen txFifosParam mtu tefua outcome =>
    simp only [interfaceStep] at stepped
    split at stepped
    · rename_i down
      simp only [InterfaceInv, down] at inv
      cases stepped
      -- Only an open that succeeds makes the condition say anything.
      rcases ifOpen_cases txFifosParam mtu tefua outcome state down with
        ⟨_, _, failed⟩ | ⟨split, found, ok, opened⟩
      · exact fun split found ok => (failed split found ok).elim
      · intro other same _
        rw [found] at same
        cases same
        rw [opened] at clean
        exact (ifOpen_clean_iff tefua ok inv).mp (clean split tefua rfl)
    · cases stepped
  | transmit label => trivial
  | ifStop => trivial

/-- Over any cycles, the opens leave clean masks if and only if each of them finds idle ones. -/
theorem openedClean_iff_findsIdle (echo : EchoTable Nat) (labels : List InterfaceLabel) :
    (interfaceMachine echo).Along OpenedClean .probed labels ↔
      (interfaceMachine echo).Along (fun state label _ => OpenFindsIdle state label) .probed
        labels := by
  -- A probed interface is down, with no frame submitted.
  have initial : InterfaceInv (InterfaceState.probed : InterfaceState echo) :=
    ⟨rfl, (txInv_opened classicLayout).processed_submitted⟩
  have keeps : ∀ state label next, InterfaceInv state → OpenFindsIdle state label →
      (interfaceMachine echo).step state label = some next →
      InterfaceInv next ∧ OpenedClean state label next :=
    fun _ label _ inv idle stepped => interfaceStep_clean label inv idle stepped
  have breaks : ∀ state label next, InterfaceInv state → OpenedClean state label next →
      (interfaceMachine echo).step state label = some next → OpenFindsIdle state label :=
    fun _ label _ inv clean stepped => openFindsIdle_of_clean label inv clean stepped
  exact Machine.along_iff_condition keeps breaks labels _ initial

/-- Steps of cycles with one module parameter and one MTU that end with no frame in a batch. -/
def SteadyCycle (txFifosParam mtu : Nat) (state : InterfaceState echo) (label : InterfaceLabel) :
    Prop :=
  match label with
  | .ifOpen param here _ _ => param = txFifosParam ∧ here = mtu
  | .transmit _ => True
  | .ifStop => state.tx.txSubmittedMask = 0

/-- What steady cycles add to the invariant: the masks hold FIFOs of their one split only. -/
structure SteadyInv (txFifosParam mtu : Nat) (state : InterfaceState echo) : Prop where
  masks : InterfaceInv state
  idle : state.up = none → state.tx.txSubmittedMask = 0
  inSplit : ∀ split, splitFifos txFifosParam mtu = some split →
    Subset state.txFifoMask split.txFifoMask ∧ Subset state.rxFifoMask split.rxFifoMask

/-- An open adds no bits to the masks but those of its split, whether it succeeds or fails. -/
theorem ifOpen_inSplit {txFifosParam mtu : Nat} (tefua : Nat) (outcome : OpenOutcome)
    {state : InterfaceState echo} {split : FifoSplit}
    (found : splitFifos txFifosParam mtu = some split)
    (tx : Subset state.txFifoMask split.txFifoMask)
    (rx : Subset state.rxFifoMask split.rxFifoMask) :
    Subset (ifOpen txFifosParam mtu tefua outcome state).txFifoMask split.txFifoMask ∧
      Subset (ifOpen txFifosParam mtu tefua outcome state).rxFifoMask split.rxFifoMask := by
  have txAfter := collectFifos_subset outcome.txFifo split.mem_txOrder split.order_inside.1 tx
  have rxAfter := collectFifos_subset outcome.rxFifo split.mem_rxOrder split.order_inside.2 rx
  -- An open that fails early has run one of the loops, or none.
  unfold ifOpen
  simp only [found]
  by_cases before : outcome.before = true
  · rw [if_pos before]
    split
    · split
      · exact ⟨txAfter, rxAfter⟩
      · exact ⟨txAfter, rxAfter⟩
    · exact ⟨txAfter, rx⟩
  · rw [if_neg before]
    exact ⟨tx, rx⟩

/-- A step of steady cycles finds the masks idle, and leaves them so. -/
theorem interfaceStep_steady {txFifosParam mtu : Nat} {state next : InterfaceState echo}
    (label : InterfaceLabel) (inv : SteadyInv txFifosParam mtu state)
    (steady : SteadyCycle txFifosParam mtu state label)
    (stepped : interfaceStep state label = some next) :
    SteadyInv txFifosParam mtu next ∧ OpenedClean state label next := by
  -- Every open has the same split as those before it, and no batch is left over.
  have idle : OpenFindsIdle state label := by
    cases label with
    | ifOpen param here tefua outcome =>
      intro split found ok
      obtain ⟨rfl, rfl⟩ := steady
      cases down : state.up with
      | none => exact ⟨inv.idle down, inv.inSplit split found⟩
      | some running => simp [interfaceStep, down] at stepped
    | transmit label => trivial
    | ifStop => trivial
  obtain ⟨masks, clean⟩ := interfaceStep_clean label inv.masks idle stepped
  cases label with
  | ifOpen param here tefua outcome =>
    obtain ⟨rfl, rfl⟩ := steady
    simp only [interfaceStep] at stepped
    split at stepped
    · rename_i before
      cases stepped
      refine ⟨⟨masks, fun down => ?_, fun split found => ?_⟩, clean⟩
      · -- Only an open that fails leaves the interface down, and it leaves the batch alone.
        rcases ifOpen_cases param here tefua outcome state before with
          ⟨_, same, _⟩ | ⟨split, _, _, opened⟩
        · rw [same]
          exact inv.idle before
        · rw [opened] at down
          cases down
      · have within := inv.inSplit split found
        exact ifOpen_inSplit tefua outcome found within.1 within.2
    · cases stepped
  | transmit label =>
    simp only [interfaceStep] at stepped
    split at stepped
    · cases stepped
    · rename_i up
      obtain ⟨tx, _, same⟩ := Option.map_eq_some_iff.mp stepped
      subst same
      refine ⟨⟨masks, fun down => ?_, inv.inSplit⟩, clean⟩
      rw [up] at down
      cases down
  | ifStop =>
    simp only [interfaceStep] at stepped
    split at stepped
    · cases stepped
    · split at stepped
      · cases stepped
        exact ⟨⟨masks, fun _ => steady, inv.inSplit⟩, clean⟩
      · cases stepped

/-- With one parameter, one MTU and no frame cut off, every successful open leaves clean masks. -/
theorem openedClean_of_steady (echo : EchoTable Nat) (txFifosParam mtu : Nat)
    (labels : List InterfaceLabel)
    (steady : (interfaceMachine echo).Along
      (fun state label _ => SteadyCycle txFifosParam mtu state label) .probed labels) :
    (interfaceMachine echo).Along OpenedClean .probed labels := by
  -- A probed interface has idle masks, which lie inside every split.
  have initial : SteadyInv txFifosParam mtu (InterfaceState.probed : InterfaceState echo) :=
    { masks := ⟨rfl, (txInv_opened classicLayout).processed_submitted⟩
      idle := fun _ => rfl
      inSplit := fun split _ =>
        ⟨subset_iff.mpr fun fifo set => by simp [InterfaceState.probed] at set,
          subset_iff.mpr fun fifo set => by simp [InterfaceState.probed] at set⟩ }
  have keeps : ∀ state label next, SteadyInv txFifosParam mtu state →
      SteadyCycle txFifosParam mtu state label →
      (interfaceMachine echo).step state label = some next →
      SteadyInv txFifosParam mtu next ∧ OpenedClean state label next :=
    fun _ label _ inv steady stepped => interfaceStep_steady label inv steady stepped
  exact Machine.along_of_condition keeps labels _ initial steady

/-- All transfers of an open succeed. -/
def allTransfers : OpenOutcome where
  before := true
  txFifo _ := true
  rxFifo _ := true
  after := true

/-- A classic interface that is stopped without having sent anything. -/
def classicCycle : List InterfaceLabel := [.ifOpen 0 canMtu 0 allTransfers, .ifStop]

/-- When it is opened again for FD frames, it has transmit FIFOs that do not exist. -/
theorem reopenFd_not_clean :
    ¬ (interfaceMachine (.ofFunction Nat)).Along OpenedClean .probed
      (classicCycle ++ [.ifOpen 0 canFdMtu 0 allTransfers]) := by
  intro along
  have clean := Machine.Along.transition along
    (Option.some_get (by decide)).symm (Option.some_get (by decide)).symm
  -- The FIFO mask still has the bits of the classic split.
  have mask := (clean _ 0 rfl).1
  revert mask
  decide

end OpenwrtMisc.Mcp25xxfd
