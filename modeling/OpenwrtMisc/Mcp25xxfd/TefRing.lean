import OpenwrtMisc.Mcp25xxfd.RxRead
import OpenwrtMisc.Mcp25xxfd.TxInvariant

/-! The interrupt thread consumes each TEF entry once, in whatever order the FIFOs are used. -/

namespace OpenwrtMisc.Mcp25xxfd

open BitMask

variable {echo : EchoTable Nat} {split : FifoSplit} {tefua : Nat}

/--
The state of the interrupt thread and of the controller, with what was done to the TEF.

The FIFOs are used in any order here, so the fields of `tx` for `mcp25xxfd_start_xmit` are idle.
-/
structure TefState (echo : EchoTable Nat) where
  tx : TxState echo
  /-- The transmit FIFOs that were triggered since the last `mcp25xxfd_wake_queue`. -/
  used : BitVec 32
  /-- The FIFOs of the RX objects in `priv->queued_fifos`. -/
  queuedRx : List Nat
  /-- The SEQ fields of all entries that the controller appended, the first one first. -/
  appended : List Nat
  /-- The SEQ fields of all entries that the driver popped, the first one first. -/
  popped : List Nat

/-- The steps of the interrupt thread and of those that it works with. -/
inductive TefLabel where
  /-- The SPI engine triggers a transmit FIFO. -/
  | trigger (fifo : Nat)
  /-- The pass reads the receive FIFOs of a mask. -/
  | rxif (mask : BitVec 32)
  /-- A completion callback, a frame that was sent, or a step of the interrupt thread. -/
  | tx (label : TxLabel)
  deriving DecidableEq, Repr

/-- The steps of the transmit path that take part, without those of xmit and without aborts. -/
def TxLabel.consumes : TxLabel → Bool
  | .startXmit | .spiAsync | .putEchoSkb | .spiExecute | .chipAborted _ => false
  | _ => true

/-- The SEQ field that a step appends to the TEF. -/
def appendsTef : TxLabel → Option Nat
  | .chipSent fifo => some fifo
  | _ => none

/-- The SEQ field of the entry that a step pops, as the driver reads it. -/
def popsTef (layout : TxLayout) (state : TxState echo) : TxLabel → Option Nat
  | .istTefCount stale =>
    match state.ist with
    | .tefCount (_ + 1) => some (readTef layout stale state)
    | _ => none
  | .istTefSingle stale => some (readTef layout stale state)
  | _ => none

/-- The FIFOs in use after a step. -/
def usedAfter (txFifoMask : BitVec 32) (state : TefState echo) : TxLabel → BitVec 32
  | .istWake => if state.tx.txProcessedMask = txFifoMask then 0 else state.used
  | _ => state.used

/-- The RX objects in the queue after a step, which a pass clears at its begin and at its end. -/
def queuedRxAfter (state : TefState echo) : TxLabel → List Nat
  | .istStatus other => if !state.tx.chipTef.isEmpty || other then [] else state.queuedRx
  | .istProcessed => []
  | _ => state.queuedRx

/-- The state after the setup: an empty TEF, nothing in use and nothing queued. -/
def TefState.opened (layout : TxLayout) : TefState echo where
  tx := TxState.opened layout
  used := 0
  queuedRx := []
  appended := []
  popped := []

/-- The state after a step of the transmit path, with the records of the TEF. -/
def afterTx (split : FifoSplit) (tefua : Nat) (state : TefState echo) (label : TxLabel)
    (next : TxState echo) : TefState echo where
  tx := next
  used := usedAfter split.txFifoMask state label
  queuedRx := queuedRxAfter state label
  appended := state.appended ++ (appendsTef label).toList
  popped := state.popped ++ (popsTef (split.layout tefua) state.tx label).toList

/-- One step, `none` when it cannot be taken now. -/
def tefStep (split : FifoSplit) (tefua : Nat) (state : TefState echo) :
    TefLabel → Option (TefState echo)
  | .trigger fifo =>
    -- A FIFO is used at most once between two wakes of the queue.
    if state.tx.spiCompleting = none ∧ split.txFifoMask.getLsbD fifo ∧
        state.used.getLsbD fifo = false then
      some { state with
        tx := { state.tx with
          spiCompleting := some fifo
          chipTxreq := state.tx.chipTxreq ||| bit fifo }
        used := state.used ||| bit fifo }
    else none
  | .rxif mask =>
    -- The receive FIFOs are read in front of the loop over the aborted ones.
    if state.tx.ist = .txatif split.txFifoStart ∧ state.queuedRx = [] ∧
        Subset mask split.rxFifoMask then
      some { state with queuedRx := fifosOf mask }
    else none
  | .tx label =>
    if label.consumes then
      (txStep (split.layout tefua) split.txFifoMask state.tx label).map
        (afterTx split tefua state label)
    else none

/-- The machine of the TEF. -/
def tefMachine (split : FifoSplit) (tefua : Nat) (echo : EchoTable Nat) :
    Machine (TefState echo) TefLabel where
  start := TefState.opened (split.layout tefua)
  step := tefStep split tefua

/-- What is to hold of the TEF, of the driver's address in it, and of the list of objects. -/
structure TefConsumed (layout : TxLayout) (state : TefState echo) : Prop where
  /-- The entries were popped in order, each once; those not popped yet are still there. -/
  once : state.appended = state.popped ++ state.tx.chipTef
  /-- After so many pops the address has advanced by so many entries, around the ring. -/
  address : state.tx.tefAddress =
    layout.tefAddressStart + sizeofTef * (state.popped.length % layout.tefFifos)
  tefua : state.tx.tefAddress = state.tx.chipTefUA layout
  /-- The list has room for 32 objects. -/
  queued : state.queuedRx.length + state.tx.queuedTef.length ≤ 32

/-- What is to hold of a step, and after it. -/
structure TefSound (layout : TxLayout) (state : TefState echo) (label : TefLabel)
    (next : TefState echo) : Prop where
  /-- A pop finds an entry, and it is the oldest one that is read. -/
  present : ∀ step seq, label = .tx step → popsTef layout state.tx step = some seq →
    state.tx.chipTef.head? = some seq
  /-- The count is no larger than the number of entries that are there. -/
  counted : label = .tx .istTefif → tefifCount state.tx ≤ (state.tx.chipTef.length : Int)
  consumed : TefConsumed layout next

/-- The invariant of the TEF. -/
structure TefInv (split : FifoSplit) (tefua : Nat) (state : TefState echo) : Prop where
  /-- The frame of a FIFO in use is at exactly one place. -/
  placed : ∀ fifo, (state.tx.chipTxreq.getLsbD fifo).toNat + state.tx.chipTef.count fifo +
    (state.tx.txProcessedMask.getLsbD fifo).toNat = (state.used.getLsbD fifo).toNat
  inRange : ∀ fifo, state.used.getLsbD fifo = true →
    split.txFifoStart ≤ fifo ∧ fifo < split.txFifoStart + split.txFifos
  /-- A FIFO in use is pending from the completion callback of its message on. -/
  pending : ∀ fifo, state.tx.txPendingMask.getLsbD fifo = true ↔
    state.used.getLsbD fifo = true ∧ state.tx.spiCompleting ≠ some fifo
  /-- No frame is processed before the callback of its message. -/
  completing : ∀ fifo, state.tx.spiCompleting = some fifo →
    state.used.getLsbD fifo = true ∧ state.tx.txProcessedMask.getLsbD fifo = false
  aborts : state.tx.chipTxatif = 0 ∧ state.tx.statusTxatif = 0
  address : state.tx.tefAddress = state.tx.chipTefUA (split.layout tefua)
  index : state.tx.chipTefIndex = state.popped.length % split.tefFifos
  once : state.appended = state.popped ++ state.tx.chipTef
  ist : IstInv state.tx
  queuedTef : ∀ fifo, state.tx.queuedTef.count fifo ≤ (state.tx.txProcessedMask.getLsbD fifo).toNat
  queuedRx : state.queuedRx.length ≤ split.rxFifos
  cleared : (state.tx.ist = .idle ∨ state.tx.ist = .snapshot ∨ state.tx.ist = .wake) →
    state.tx.queuedTef = []

/-- The invariant holds after the setup. -/
theorem tefInv_opened (split : FifoSplit) (tefua : Nat) :
    TefInv split tefua (TefState.opened (split.layout tefua) : TefState echo) where
  -- All masks and all queues are empty, and both indices of the ring are zero.
  placed fifo := by simp [TefState.opened, TxState.opened]
  inRange fifo set := by simp [TefState.opened] at set
  pending fifo := by simp [TefState.opened, TxState.opened]
  completing fifo same := by simp [TefState.opened, TxState.opened] at same
  aborts := ⟨rfl, rfl⟩
  address := by simp [TefState.opened, TxState.opened, TxState.chipTefUA]
  index := (Nat.zero_mod _).symm
  once := rfl
  ist := trivial
  queuedTef fifo := by simp [TefState.opened, TxState.opened]
  queuedRx := Nat.zero_le _
  cleared _ := rfl

/-- The bits of the mask of the transmit FIFOs. -/
theorem FifoSplit.getLsbD_txFifoMask (split : FifoSplit) (fifo : Nat) :
    split.txFifoMask.getLsbD fifo = true ↔
      split.txFifoStart ≤ fifo ∧ fifo < split.txFifoStart + split.txFifos :=
  Mcp25xxfd.getLsbD_txFifoMask (split.layout 0) fifo

namespace TefInv

variable {state : TefState echo} (inv : TefInv split tefua state)
include inv

/-- A FIFO whose frame is found at some place is in use. -/
theorem used_of_found {fifo : Nat} (found : 0 < (state.tx.chipTxreq.getLsbD fifo).toNat +
    state.tx.chipTef.count fifo + (state.tx.txProcessedMask.getLsbD fifo).toNat) :
    state.used.getLsbD fifo = true := by
  -- A frame at some place is counted once.
  have placed := inv.placed fifo
  have once := Bool.toNat_le (state.used.getLsbD fifo)
  exact Bool.toNat_eq_one.mp (by omega)

/-- The TEF never fills up, as long as a frame is still on its way to it. -/
theorem tef_room {fifo : Nat} (requested : state.tx.chipTxreq.getLsbD fifo = true) :
    state.tx.chipTef.length < split.tefFifos := by
  -- The requested FIFO and those in the TEF are distinct transmit FIFOs.
  have counts : ∀ other, (fifo :: state.tx.chipTef).count other ≤ 1 := by
    intro other
    have placed := inv.placed other
    have once := Bool.toNat_le (state.used.getLsbD other)
    rw [List.count_cons]
    by_cases same : fifo = other
    · rw [same] at requested
      rw [requested, Bool.toNat_true] at placed
      simp only [same, beq_self_eq_true, if_true]
      omega
    · simp only [beq_iff_eq, same, if_false]
      omega
  have inRange : ∀ other ∈ fifo :: state.tx.chipTef,
      split.txFifoStart ≤ other ∧ other < split.txFifoStart + split.txFifos := by
    intro other member
    apply inv.inRange
    apply inv.used_of_found
    rcases List.mem_cons.mp member with same | inTef
    · rw [same, requested, Bool.toNat_true]
      omega
    · have here := List.count_pos_iff.mpr inTef
      omega
  have bounded : (fifo :: state.tx.chipTef).length ≤ (split.layout tefua).txFifos :=
    length_le_txFifos counts inRange
  have room : state.tx.chipTef.length + 1 ≤ split.txFifos := bounded
  have holds := split.tefHolds
  omega

/-- The list of objects has one for each receive FIFO and for each transmit FIFO at most. -/
theorem queued_le : state.queuedRx.length + state.tx.queuedTef.length ≤ 32 := by
  -- The transmit objects are distinct, so they are no more than the transmit FIFOs.
  have once : ∀ fifo, state.tx.queuedTef.count fifo ≤ 1 :=
    fun fifo => Nat.le_trans (inv.queuedTef fifo) (Bool.toNat_le _)
  have inRange : ∀ fifo ∈ state.tx.queuedTef,
      split.txFifoStart ≤ fifo ∧ fifo < split.txFifoStart + split.txFifos := by
    intro fifo member
    apply inv.inRange
    apply inv.used_of_found
    have here := List.count_pos_iff.mpr member
    have processed := inv.queuedTef fifo
    omega
  have distinct : state.tx.queuedTef.length ≤ (split.layout tefua).txFifos :=
    length_le_txFifos once inRange
  have bounded : state.tx.queuedTef.length ≤ split.txFifos := distinct
  -- Together the two kinds of FIFOs are FIFOs of the controller, of which there are 32 at most.
  have received := inv.queuedRx
  have first := split.rxFirst
  have inMask := split.inMask
  omega

/-- What the invariant says of the TEF is what is to hold of it. -/
theorem consumed : TefConsumed (split.layout tefua) state where
  once := inv.once
  address := by
    -- The controller's own index counts the pops, so its address says where the driver is.
    rw [inv.address, TxState.chipTefUA, inv.index, Nat.mul_comm]
    rfl
  tefua := inv.address
  queued := inv.queued_le

end TefInv

/-- A step of the interrupt thread that pops nothing keeps the frames where they are. -/
theorem TefInv.move {state : TefState echo} (inv : TefInv split tefua state) {next : TefState echo}
    (txreq : next.tx.chipTxreq = state.tx.chipTxreq) (tef : next.tx.chipTef = state.tx.chipTef)
    (processed : next.tx.txProcessedMask = state.tx.txProcessedMask)
    (pending : next.tx.txPendingMask = state.tx.txPendingMask)
    (completing : next.tx.spiCompleting = state.tx.spiCompleting)
    (txatif : next.tx.chipTxatif = state.tx.chipTxatif)
    (address : next.tx.tefAddress = state.tx.tefAddress)
    (index : next.tx.chipTefIndex = state.tx.chipTefIndex) (used : next.used = state.used)
    (appended : next.appended = state.appended) (popped : next.popped = state.popped)
    (statusTxatif : next.tx.statusTxatif = 0) (ist : IstInv next.tx)
    (queuedTef : ∀ fifo, next.tx.queuedTef.count fifo ≤ state.tx.queuedTef.count fifo)
    (queuedRx : next.queuedRx.length ≤ split.rxFifos)
    (cleared : (next.tx.ist = .idle ∨ next.tx.ist = .snapshot ∨ next.tx.ist = .wake) →
      next.tx.queuedTef = []) : TefInv split tefua next where
  placed fifo := by
    rw [txreq, tef, processed, used]
    exact inv.placed fifo
  inRange fifo set := inv.inRange fifo (used ▸ set)
  pending fifo := by
    rw [pending, used, completing]
    exact inv.pending fifo
  completing fifo same := by
    rw [used, processed]
    exact inv.completing fifo (completing ▸ same)
  aborts := ⟨txatif.trans inv.aborts.1, statusTxatif⟩
  address := by
    rw [address, TxState.chipTefUA, index]
    exact inv.address
  index := by
    rw [index, popped]
    exact inv.index
  once := by
    rw [appended, popped, tef]
    exact inv.once
  ist := ist
  queuedTef fifo := by
    rw [processed]
    exact Nat.le_trans (queuedTef fifo) (inv.queuedTef fifo)
  queuedRx := queuedRx
  cleared := cleared

/-- Triggering a FIFO that was not in use puts its frame into the controller. -/
theorem TefInv.trigger {state : TefState echo} (inv : TefInv split tefua state) {fifo : Nat}
    (quiet : state.tx.spiCompleting = none) (member : split.txFifoMask.getLsbD fifo = true)
    (free : state.used.getLsbD fifo = false) :
    TefInv split tefua
      { state with
        tx := { state.tx with
          spiCompleting := some fifo
          chipTxreq := state.tx.chipTxreq ||| bit fifo }
        used := state.used ||| bit fifo } := by
  -- The frame of the FIFO is at one place more, in the controller.
  have inside := BitVec.lt_of_getLsbD member
  have nowhere := inv.placed fifo
  rw [free, Bool.toNat_false] at nowhere
  -- A FIFO that is not in use has its frame at no place.
  have unrequested : state.tx.chipTxreq.getLsbD fifo = false := Bool.toNat_eq_zero.mp (by omega)
  have unprocessed : state.tx.txProcessedMask.getLsbD fifo = false :=
    Bool.toNat_eq_zero.mp (by omega)
  refine
    { placed := ?_
      inRange := ?_
      pending := ?_
      completing := ?_
      aborts := inv.aborts
      address := inv.address
      index := inv.index
      once := inv.once
      ist := inv.ist.mono rfl rfl rfl rfl rfl (fun _ set => set) (fun _ set => set)
        (List.prefix_refl _)
      queuedTef := inv.queuedTef
      queuedRx := inv.queuedRx
      cleared := inv.cleared }
  · -- Both the request and the mark of use are new, and only for this FIFO.
    intro other
    have before := inv.placed other
    simp only [getLsbD_set _ inside]
    by_cases same : other = fifo
    · rw [same] at before ⊢
      rw [unrequested, free, Bool.toNat_false] at before
      simp only [decide_true, Bool.or_true, Bool.toNat_true]
      omega
    · simp only [same, decide_false, Bool.or_false]
      exact before
  · -- The FIFO that is new in the mask of use is a transmit FIFO.
    intro other set
    rw [getLsbD_set _ inside, Bool.or_eq_true, decide_eq_true_eq] at set
    rcases set with before | same
    · exact inv.inRange other before
    · exact (split.getLsbD_txFifoMask other).mp (same ▸ member)
  · -- The FIFO is in use from now on, but its callback is still to come.
    intro other
    have before := inv.pending other
    rw [quiet] at before
    simp only [getLsbD_set _ inside, Bool.or_eq_true, decide_eq_true_eq, before, ne_eq,
      reduceCtorEq, not_false_eq_true, and_true, Option.some.injEq]
    by_cases same : other = fifo
    · simp [same, free]
    · simp [same, Ne.symm same]
  · -- The frame was just triggered, so it is not processed.
    intro other same
    have here : fifo = other := Option.some.inj same
    rw [← here]
    refine ⟨?_, unprocessed⟩
    rw [getLsbD_set _ inside, decide_eq_true rfl, Bool.or_true]

/-- The completion callback makes its FIFO a pending one. -/
theorem TefInv.markTxPending {state : TefState echo} (inv : TefInv split tefua state) {fifo : Nat}
    (completing : state.tx.spiCompleting = some fifo) :
    TefInv split tefua { state with tx := markTxPending fifo state.tx } := by
  -- Only the mask of pending FIFOs changes, by a FIFO that is in use already.
  have inUse := (inv.completing fifo completing).1
  have inside := BitVec.lt_of_getLsbD inUse
  refine
    { placed := inv.placed
      inRange := inv.inRange
      pending := ?_
      completing := fun other same => by cases same
      aborts := inv.aborts
      address := inv.address
      index := inv.index
      once := inv.once
      ist := inv.ist.mono rfl rfl rfl rfl rfl ?_ (fun _ set => set) (List.prefix_refl _)
      queuedTef := inv.queuedTef
      queuedRx := inv.queuedRx
      cleared := inv.cleared }
  · intro other
    have before := inv.pending other
    -- With the callback done, being in use and being pending are the same for this FIFO.
    show (state.tx.txPendingMask ||| bit fifo).getLsbD other = true ↔
      state.used.getLsbD other = true ∧ none ≠ some other
    rw [getLsbD_set _ inside, Bool.or_eq_true, decide_eq_true_eq, before, completing]
    by_cases same : other = fifo
    · simp [same, inUse]
    · simp [same, Ne.symm same]
  · intro other set
    show (state.tx.txPendingMask ||| bit fifo).getLsbD other = true
    rw [getLsbD_set _ inside, set, Bool.true_or]

/-- A frame that was sent moves from the requested FIFOs to the end of the TEF. -/
theorem TefInv.chipSent {state : TefState echo} (inv : TefInv split tefua state) {fifo : Nat}
    (requested : state.tx.chipTxreq.getLsbD fifo = true) :
    TefInv split tefua
      { state with
        tx := { state.tx with
          chipTxreq := state.tx.chipTxreq &&& ~~~(bit fifo)
          chipTef :=
            if state.tx.chipTef.length < (split.layout tefua).tefFifos then
              state.tx.chipTef ++ [fifo]
            else state.tx.chipTef }
        appended := state.appended ++ [fifo] } := by
  have room : state.tx.chipTef.length < (split.layout tefua).tefFifos := inv.tef_room requested
  rw [if_pos room]
  -- The one request of the FIFO becomes one entry, so it keeps one place.
  have moved := toNat_getLsbD_clear requested
  exact
    { placed := fun other => by
        have before := inv.placed other
        rw [moved other] at before
        simp only [List.count_append, List.count_singleton, beq_iff_eq, @eq_comm _ fifo other]
        omega
      inRange := inv.inRange
      pending := inv.pending
      completing := inv.completing
      aborts := inv.aborts
      address := inv.address
      index := inv.index
      once := by
        show state.appended ++ [fifo] = state.popped ++ (state.tx.chipTef ++ [fifo])
        rw [inv.once, List.append_assoc]
      ist := inv.ist.mono rfl rfl rfl rfl rfl (fun _ set => set) (fun _ set => set)
        (List.prefix_append _ _)
      queuedTef := inv.queuedTef
      queuedRx := inv.queuedRx
      cleared := inv.cleared }

/-- Popping an entry that is there moves its frame to the processed FIFOs. -/
theorem TefInv.pop {state : TefState echo} (inv : TefInv split tefua state) (stale : Nat)
    (position : Ist) (quiet : state.tx.spiCompleting = none) {fifo : Nat} {rest : List Nat}
    (tef : state.tx.chipTef = fifo :: rest)
    (ist : IstInv { handleTefifSingle (split.layout tefua) stale state.tx with ist := position })
    (busy : ¬ (position = .idle ∨ position = .snapshot ∨ position = .wake)) :
    TefInv split tefua
      { state with
        tx := { handleTefifSingle (split.layout tefua) stale state.tx with ist := position }
        popped := state.popped ++ [fifo] } := by
  -- The frame was in the TEF, and is at no other place.
  have inUse : state.used.getLsbD fifo = true := by
    apply inv.used_of_found
    rw [tef, List.count_cons_self]
    omega
  have inside := BitVec.lt_of_getLsbD inUse
  have unprocessed : state.tx.txProcessedMask.getLsbD fifo = false := by
    -- The entry is the one place of its frame.
    have placed := inv.placed fifo
    rw [tef, List.count_cons_self, inUse, Bool.toNat_true] at placed
    exact Bool.toNat_eq_zero.mp (by omega)
  -- The mark is new, so it counts as one more place for this FIFO and none for the others.
  have marked := toNat_getLsbD_set inside unprocessed
  rw [handleTefifSingle_eq inv.address stale tef] at ist ⊢
  exact
    { placed := fun other => by
        have before := inv.placed other
        rw [tef, List.count_cons] at before
        simp only [beq_iff_eq, @eq_comm _ fifo other] at before
        simp only [marked]
        omega
      inRange := inv.inRange
      pending := inv.pending
      completing := fun other same => by
        rw [quiet] at same
        cases same
      aborts := inv.aborts
      address := by
        -- The driver and the controller both go on to the next entry of the ring.
        have inRing : state.tx.chipTefIndex < (split.layout tefua).tefFifos := by
          rw [inv.index]
          exact Nat.mod_lt _ (Nat.lt_of_lt_of_le split.nonempty split.tefHolds)
        show nextTefAddress (split.layout tefua) state.tx.tefAddress = _
        rw [inv.address, TxState.chipTefUA, nextTefAddress_ring _ inRing]
        rfl
      index := by
        show (state.tx.chipTefIndex + 1) % split.tefFifos = _
        rw [inv.index, Nat.mod_add_mod, List.length_append]
        rfl
      once := by
        show state.appended = state.popped ++ [fifo] ++ rest
        rw [inv.once, tef, List.append_assoc]
        rfl
      ist := ist
      queuedTef := fun other => by
        have before := inv.queuedTef other
        simp only [marked, List.count_append, List.count_singleton, beq_iff_eq,
          @eq_comm _ fifo other]
        omega
      queuedRx := inv.queuedRx
      cleared := fun here => absurd here busy }

/-- Waking the queue after the last frame leaves no FIFO in use. -/
theorem TefInv.wake {state : TefState echo} (inv : TefInv split tefua state)
    (at_ : state.tx.ist = .wake) (done : state.tx.txProcessedMask = split.txFifoMask) :
    TefInv split tefua
      { state with tx := { wakeQueue state.tx with ist := .idle }, used := 0 } := by
  -- All transmit FIFOs are processed, so no frame is anywhere else.
  have elsewhere : ∀ fifo,
      (state.tx.chipTxreq.getLsbD fifo).toNat + state.tx.chipTef.count fifo = 0 := by
    intro fifo
    have placed := inv.placed fifo
    cases set : state.used.getLsbD fifo with
    | false =>
      rw [set, Bool.toNat_false] at placed
      omega
    | true =>
      have processed := (split.getLsbD_txFifoMask fifo).mpr (inv.inRange fifo set)
      rw [← done] at processed
      rw [set, processed, Bool.toNat_true] at placed
      omega
  have nothing := inv.cleared (Or.inr (Or.inr at_))
  have zero : ∀ fifo, (0 : BitVec 32).getLsbD fifo = false := fun _ => BitVec.getLsbD_zero ..
  refine
    { placed := ?_
      inRange := fun fifo set => by simp at set
      pending := ?_
      completing := ?_
      aborts := inv.aborts
      address := inv.address
      index := inv.index
      once := inv.once
      ist := trivial
      queuedTef := ?_
      queuedRx := inv.queuedRx
      cleared := fun _ => nothing }
  · intro fifo
    -- The counts of every FIFO start again from nothing.
    show (state.tx.chipTxreq.getLsbD fifo).toNat + state.tx.chipTef.count fifo +
      ((0 : BitVec 32).getLsbD fifo).toNat = ((0 : BitVec 32).getLsbD fifo).toNat
    rw [elsewhere fifo, zero fifo, Nat.zero_add]
  · intro fifo
    show (0 : BitVec 32).getLsbD fifo = true ↔ (0 : BitVec 32).getLsbD fifo = true ∧ _
    rw [zero fifo]
    simp
  · -- A callback that is still to come belongs to a frame that is not processed.
    intro fifo same
    have waiting := inv.completing fifo same
    have processed := (split.getLsbD_txFifoMask fifo).mpr (inv.inRange fifo waiting.1)
    rw [← done, waiting.2] at processed
    cases processed
  · intro fifo
    show state.tx.queuedTef.count fifo ≤ _
    rw [nothing]
    exact Nat.zero_le _

/-- The RX objects of a mask are no more than there are receive FIFOs. -/
theorem length_fifosOf {mask : BitVec 32} (contained : Subset mask split.rxFifoMask) :
    (fifosOf mask).length ≤ split.rxFifos := by
  -- The FIFOs of the mask are distinct, and all of them are receive FIFOs.
  have nodup : (fifosOf mask).Nodup := List.nodup_range.filter _
  have subset : fifosOf mask ⊆ List.range' split.rxFifoStart split.rxFifos := by
    intro fifo member
    have set := subset_iff.mp contained fifo (mem_fifosOf.mp member)
    rw [List.mem_range'_1]
    exact (split.getLsbD_rxFifoMask fifo).mp set
  have bounded := (List.subperm_of_subset nodup subset).length_le
  rw [List.length_range'] at bounded
  exact bounded

/-- The status tells where each frame of the snapshot is, as long as no frame is aborted. -/
theorem TefInv.istStatus {state : TefState echo} (inv : TefInv split tefua state)
    (at_ : state.tx.ist = .snapshot) :
    ∀ fifo, state.tx.txPendingMaskInIrq.getLsbD fifo = true →
      state.tx.chipTxreq.getLsbD fifo = false →
      fifo ∈ state.tx.chipTef ∨ state.tx.txProcessedMask.getLsbD fifo = true := by
  -- The frame is in the controller, in the TEF or processed.
  intro fifo set idle
  have snapshot := inv.ist
  simp only [IstInv, at_] at snapshot
  -- The FIFO has been triggered before the snapshot, so its frame is somewhere.
  have inUse := ((inv.pending fifo).mp (snapshot fifo set)).1
  have placed := inv.placed fifo
  rw [inUse, idle, Bool.toNat_true, Bool.toNat_false] at placed
  by_cases sent : fifo ∈ state.tx.chipTef
  · exact Or.inl sent
  · rw [List.count_eq_zero_of_not_mem sent] at placed
    cases done : state.tx.txProcessedMask.getLsbD fifo with
    | true => exact Or.inr rfl
    | false => simp [done] at placed

/-- No frame is aborted, so the status shows no abort. -/
theorem TefInv.unaborted {state : TefState echo} (inv : TefInv split tefua state) (fifo : Nat) :
    state.tx.statusTxatif.getLsbD fifo = false := by
  -- The controller aborts nothing, and the status is a copy of its flags.
  rw [inv.aborts.2]
  exact BitVec.getLsbD_zero ..

/-- The status does not queue any RX object. -/
theorem TefInv.queuedRxAfter_le {state : TefState echo} (inv : TefInv split tefua state)
    (other : Bool) : (queuedRxAfter state (.istStatus other)).length ≤ split.rxFifos := by
  -- The list is emptied or stays as it was.
  simp only [queuedRxAfter]
  split
  · exact Nat.zero_le _
  · exact inv.queuedRx

/-- Every step of the transmit path that takes part keeps the invariant of the TEF. -/
theorem TefInv.txStep {state : TefState echo} (inv : TefInv split tefua state) {label : TxLabel}
    {next : TxState echo} (consumes : label.consumes = true)
    (stepped : txStep (split.layout tefua) split.txFifoMask state.tx label = some next) :
    TefInv split tefua (afterTx split tefua state label next) := by
  -- The cases are the moves of the transmit machine, of which some do not take part.
  have none : ∀ entries : List Nat, entries ++ (Option.none : Option Nat).toList = entries :=
    List.append_nil
  have same : ∀ fifo, state.tx.queuedTef.count fifo ≤ state.tx.queuedTef.count fifo :=
    fun _ => Nat.le_refl _
  cases txMove_of_txStep stepped with
  | startXmitBusy | startXmit | spiAsync | putEchoSkb | spiExecute | chipAborted => cases consumes
  | markTxPending completing =>
    have kept := inv.markTxPending completing
    simpa only [afterTx, usedAfter, queuedRxAfter, appendsTef, popsTef, none] using kept
  | chipSent requested =>
    have kept := inv.chipSent requested
    simpa only [afterTx, usedAfter, queuedRxAfter, appendsTef, popsTef, none,
      Option.toList_some] using kept
  | istSnapshot at_ =>
    -- The snapshot copies the mask of pending FIFOs, so its FIFOs are pending.
    have nothing := inv.cleared (Or.inl at_)
    exact inv.move rfl rfl rfl rfl rfl rfl rfl rfl rfl (none _) (none _) inv.aborts.2
      (fun _ set => set) same inv.queuedRx (fun _ => nothing)
  | @istStatus other at_ quiet work =>
    have known := inv.istStatus at_
    refine inv.move rfl rfl rfl rfl rfl rfl rfl rfl rfl (none _) (none _) inv.aborts.1 ?_
      (fun _ => Nat.zero_le _) (inv.queuedRxAfter_le other) (fun _ => rfl)
    refine ⟨fun _ _ set => set, fun fifo set idle => ?_⟩
    rcases known fifo set idle with inTef | processed
    · exact Or.inl inTef
    · exact Or.inr (Or.inl processed)
  | @istStatusIdle other at_ quiet nothingToDo =>
    -- A pass with no work to do clears no list, but the list was empty before it.
    have nothing := inv.cleared (Or.inr (Or.inl at_))
    exact inv.move rfl rfl rfl rfl rfl rfl rfl rfl rfl (none _) (none _) inv.aborts.1 trivial
      same (inv.queuedRxAfter_le other) (fun _ => nothing)
  | @istTxatif fifo at_ inside aborted quiet =>
    -- The loop over the aborted FIFOs runs through all of them and finds none.
    rw [inv.unaborted] at aborted
    cases aborted
  | istTxatifPassed at_ inside passed =>
    have known := inv.ist
    simp only [IstInv, at_] at known
    refine inv.move rfl rfl rfl rfl rfl rfl rfl rfl rfl (none _) (none _) inv.aborts.2 ?_
      same inv.queuedRx (by simp [afterTx])
    refine ⟨fun other _ set => known.1 other (by omega) set, fun other set idle => ?_⟩
    rcases known.2 other set idle with inTef | processed | raised
    · exact Or.inl inTef
    · exact Or.inr (Or.inl processed)
    · rw [inv.unaborted] at raised
      cases raised.2
  | istTxatifEnded at_ past =>
    have known := inv.ist
    simp only [IstInv, at_] at known
    refine inv.move rfl rfl rfl rfl rfl rfl rfl rfl rfl (none _) (none _) inv.aborts.2 ?_
      same inv.queuedRx (by simp [afterTx])
    intro other set idle
    rcases known.2 other set idle with inTef | processed | raised
    · exact Or.inl inTef
    · exact Or.inr processed
    · rw [inv.unaborted] at raised
      cases raised.2
  | istTefif at_ =>
    have known := inv.ist
    simp only [IstInv, at_] at known
    -- The count takes in only FIFOs that are no longer requested, and their entries are there.
    have bounded := tefifCount_le known
    refine inv.move rfl rfl rfl rfl rfl rfl rfl rfl rfl (none _) (none _) inv.aborts.2 ?_
      same inv.queuedRx ?_
    · show IstInv { state.tx with
        ist := if state.tx.statusTefif = true then handleTefif state.tx else .process }
      by_cases tefif : state.tx.statusTefif = true
      · rw [if_pos tefif]
        unfold handleTefif
        split
        · trivial
        · simp only [IstInv]
          omega
      · rw [if_neg tefif]
        trivial
    · intro quiet
      by_cases tefif : state.tx.statusTefif = true
      · simp only [afterTx, tefif, if_true, handleTefif] at quiet
        split at quiet <;> simp at quiet
      · simp [afterTx, tefif] at quiet
  | @istTefCounted stale at_ =>
    -- The count has run out, so nothing is popped and the driver goes on to the objects.
    have nopop : popsTef (split.layout tefua) state.tx (.istTefCount stale) = Option.none := by
      simp only [popsTef, at_]
    refine inv.move rfl rfl rfl rfl rfl rfl rfl rfl rfl (none _) ?_ inv.aborts.2 trivial
      same inv.queuedRx (by simp [afterTx])
    simp only [afterTx, nopop, none]
  | @istTefCount stale left at_ quiet =>
    have known := inv.ist
    simp only [IstInv, at_] at known
    -- The count is no larger than the TEF is long, so there is an entry to pop.
    cases tef : state.tx.chipTef with
    | nil => simp [tef] at known
    | cons fifo rest =>
      rw [tef, List.length_cons] at known
      have holds : IstInv { handleTefifSingle (split.layout tefua) stale state.tx with
          ist := .tefCount left } := by
        rw [handleTefifSingle_eq inv.address stale tef]
        simp only [IstInv]
        omega
      have popped : popsTef (split.layout tefua) state.tx (.istTefCount stale) = some fifo := by
        simp [popsTef, at_, readTef, inv.address, tef]
      have kept := inv.pop stale (.tefCount left) quiet tef holds (by simp)
      simpa only [afterTx, usedAfter, queuedRxAfter, appendsTef, popped, none,
        Option.toList_some] using kept
  | istTefEmpty at_ empty =>
    exact inv.move rfl rfl rfl rfl rfl rfl rfl rfl rfl (none _) (none _) inv.aborts.2 trivial
      same inv.queuedRx (by simp [afterTx])
  | istTefCheck at_ nonempty =>
    -- The address is read anew, which changes nothing as it was right.
    exact inv.move rfl rfl rfl rfl rfl rfl inv.address.symm rfl rfl (none _) (none _)
      inv.aborts.2 (List.length_pos_of_ne_nil nonempty) same inv.queuedRx (by simp [afterTx])
  | @istTefSingle stale at_ quiet =>
    have known := inv.ist
    simp only [IstInv, at_] at known
    cases tef : state.tx.chipTef with
    | nil => simp [tef] at known
    | cons fifo rest =>
      have popped : popsTef (split.layout tefua) state.tx (.istTefSingle stale) = some fifo := by
        simp [popsTef, readTef, inv.address, tef]
      have kept := inv.pop stale .tefConservative quiet tef trivial (by simp)
      simpa only [afterTx, usedAfter, queuedRxAfter, appendsTef, popped, none,
        Option.toList_some] using kept
  | istProcess at_ found =>
    -- An object that is taken off the list leaves the other ones in it.
    exact inv.move rfl rfl rfl rfl rfl rfl rfl rfl rfl (none _) (none _) inv.aborts.2
      (by simp [afterTx, IstInv, getEchoSkb, at_])
      (fun fifo => (List.eraseIdx_sublist _ _).count_le fifo) inv.queuedRx
      (by simp [afterTx, getEchoSkb, at_])
  | istProcessed at_ empty =>
    exact inv.move rfl rfl rfl rfl rfl rfl rfl rfl rfl (none _) (none _) inv.aborts.2 trivial
      same (Nat.zero_le _) (fun _ => empty)
  | istWake at_ done =>
    have kept := inv.wake at_ done
    simpa only [afterTx, usedAfter, queuedRxAfter, appendsTef, popsTef, none, if_pos done]
      using kept
  | istAsleep at_ waiting =>
    have nothing := inv.cleared (Or.inr (Or.inr at_))
    exact inv.move rfl rfl rfl rfl rfl rfl rfl rfl (if_neg waiting) (none _) (none _)
      inv.aborts.2 trivial same inv.queuedRx (fun _ => nothing)

/-- Every step keeps the invariant of the TEF. -/
theorem tefStep_inv {state next : TefState echo} (label : TefLabel)
    (inv : TefInv split tefua state) (stepped : tefStep split tefua state label = some next) :
    TefInv split tefua next := by
  -- The cases are the steps of the machine.
  cases label with
  | trigger fifo =>
    simp only [tefStep] at stepped
    split at stepped
    · rename_i ready
      cases stepped
      exact inv.trigger ready.1 ready.2.1 ready.2.2
    · cases stepped
  | rxif mask =>
    simp only [tefStep] at stepped
    split at stepped
    · rename_i ready
      cases stepped
      exact { inv with queuedRx := length_fifosOf ready.2.2 }
    · cases stepped
  | tx label =>
    simp only [tefStep] at stepped
    split at stepped
    · rename_i consumes
      obtain ⟨tx, moved, rfl⟩ := Option.map_eq_some_iff.mp stepped
      exact inv.txStep consumes moved
    · cases stepped

/-- A step from a state of the invariant finds what it pops and counts no more than is there. -/
theorem TefInv.sound {state next : TefState echo} {label : TefLabel}
    (inv : TefInv split tefua state) (stepped : tefStep split tefua state label = some next)
    (after : TefInv split tefua next) : TefSound (split.layout tefua) state label next := by
  -- What a step counts and pops is what the invariant says of the TEF.
  refine ⟨?_, ?_, after.consumed⟩
  · intro step seq same pops
    rw [same] at stepped
    simp only [tefStep] at stepped
    split at stepped
    · obtain ⟨tx, moved, -⟩ := Option.map_eq_some_iff.mp stepped
      have known := inv.ist
      -- Only the two steps that handle a single entry pop one, and both know of it.
      have reads : ∀ stale, 0 < state.tx.chipTef.length →
          readTef (split.layout tefua) stale state.tx = seq →
          state.tx.chipTef.head? = some seq := by
        intro stale nonempty read
        cases tef : state.tx.chipTef with
        | nil => simp [tef] at nonempty
        | cons fifo rest =>
          simp only [readTef, inv.address, tef, if_true, List.head?_cons, Option.getD_some] at read
          rw [List.head?_cons, read]
      cases txMove_of_txStep moved with
      | @istTefCount stale left at_ quiet =>
        simp only [popsTef, at_, Option.some.injEq] at pops
        simp only [IstInv, at_] at known
        exact reads stale (by omega) pops
      | @istTefCounted stale at_ =>
        simp only [popsTef, at_] at pops
        cases pops
      | @istTefSingle stale at_ quiet =>
        simp only [IstInv, at_] at known
        exact reads stale known (Option.some.inj pops)
      | _ => cases pops
    · cases stepped
  · intro same
    rw [same] at stepped
    simp only [tefStep] at stepped
    split at stepped
    · obtain ⟨tx, moved, -⟩ := Option.map_eq_some_iff.mp stepped
      cases txMove_of_txStep moved with
      | istTefif at_ =>
        have known := inv.ist
        simp only [IstInv, at_] at known
        exact tefifCount_le known
    · cases stepped

/--
In every interleaving the interrupt thread pops each entry of the TEF once, and no other one.

The transmit FIFOs may be used in any order, each at most once between two wakes of the queue.
-/
theorem tef_consumed_once (split : FifoSplit) (tefua : Nat) (echo : EchoTable Nat)
    (labels : List TefLabel) :
    (tefMachine split tefua echo).Along (TefSound (split.layout tefua))
      (TefState.opened (split.layout tefua)) labels := by
  have keeps : ∀ state label next, TefInv split tefua state → True →
      (tefMachine split tefua echo).step state label = some next →
      TefInv split tefua next ∧ TefSound (split.layout tefua) state label next := by
    intro state label next inv _ stepped
    have after := tefStep_inv label inv stepped
    exact ⟨after, inv.sound stepped after⟩
  -- No condition is needed on the steps.
  have always : (tefMachine split tefua echo).Along (fun _ _ _ => True)
      (TefState.opened (split.layout tefua)) labels :=
    Machine.along_of_forall (fun _ _ _ _ => trivial) _
  exact Machine.along_of_condition keeps labels _ (tefInv_opened split tefua) always

/-- A pass up to the TEF, where no FIFO is aborted. -/
def passToTef : List TefLabel :=
  [.tx .istSnapshot, .tx (.istStatus false)] ++ List.replicate 8 (.tx .istTxatif) ++ [.tx .istTefif]

/-- Two FIFOs used from the higher one down: the first pass misses the second of them. -/
example :
    ((tefMachine classicSplit 0 (.ofFunction Nat)).exec (TefState.opened (classicSplit.layout 0))
      ([.trigger 26, .tx .markTxPending, .trigger 25, .tx (.chipSent 26), .tx .istSnapshot,
        .tx .markTxPending, .tx (.chipSent 25)] ++ passToTef.drop 1 ++
        [.tx (.istTefCount 0), .tx (.istTefCount 0), .tx (.istProcess 0), .tx .istProcessed,
          .tx .istWake] ++ passToTef ++ [.tx (.istTefCount 0)])).map
      (fun state => (state.popped, state.tx.tefAddress)) = some ([26, 25], 24) := by
  decide

end OpenwrtMisc.Mcp25xxfd
