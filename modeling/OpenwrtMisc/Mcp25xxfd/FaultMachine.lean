import OpenwrtMisc.Lib.Ledger
import OpenwrtMisc.Mcp25xxfd.RxFaults
import OpenwrtMisc.Mcp25xxfd.RxRead
import OpenwrtMisc.Mcp25xxfd.TefRing

/-! The passes of the interrupt thread over the FIFO RAM, in which any transfer may fail. -/

namespace OpenwrtMisc.Mcp25xxfd

open BitMask

variable {echo : EchoTable Nat}

/-- The FIFOs as they are configured, with the place of the TEF and two module parameters. -/
structure FaultConfig where
  rx : RxConfig
  /-- The first address of the TEF, whose objects lie apart from those of the receive FIFOs. -/
  tefua : Nat
  apart : ∀ fifo, rx.Rx fifo →
    rx.fifoAddress fifo + (sizeofRx + rx.split.payloadSize) ≤ tefua ∨
      tefua + rx.split.tefFifos * sizeofTef ≤ rx.fifoAddress fifo
  useCompleteFdfifoRead : Bool
  useBulkReleaseFifos : Bool

/-- The layout that the transmit path works on. -/
def FaultConfig.layout (config : FaultConfig) : TxLayout := config.rx.split.layout config.tefua

/-- The condition on which the receive FIFOs are read each run of them in one transfer. -/
def FaultConfig.bulk (config : FaultConfig) : Bool := !config.rx.fd || config.useCompleteFdfifoRead

/-- The state of the driver and of the controller, with the FIFO RAM. -/
structure FaultState (echo : EchoTable Nat) where
  tx : TxState echo
  rx : RxState
  ram : Nat → UInt8
  /-- The receive FIFOs of the controller that are not empty. -/
  occupied : BitVec 32
  /-- `priv->status.rxif`. -/
  statusRxif : BitVec 32
  /-- The pass has the receive FIFOs still before it. -/
  rxifPending : Bool
  /-- How often the controller has put an object at an address. -/
  filled : Nat → Nat
  /-- What the addresses in `rxb` held when they were queued. -/
  objects : List (Nat × Nat)
  /-- What was handed to `mcp25xxfd_process_queued_fifos`. -/
  handed : List (Nat × Nat)
  /-- The addresses of the objects that the pass has released on the controller. -/
  released : List Nat

/-- The account of the objects that were handed on or are queued to be. -/
def FaultState.ledger (state : FaultState echo) : Ledger Nat :=
  ⟨state.filled, state.handed ++ state.objects⟩

/-- The address of an entry of the TEF, by its place in the ring. -/
def FaultConfig.tefSlot (config : FaultConfig) (place : Nat) : Nat :=
  config.tefua + place % config.rx.split.tefFifos * sizeofTef

/-- The address where the controller puts the next entry of the TEF. -/
def FaultConfig.nextSlot (config : FaultConfig) (state : FaultState echo) : Nat :=
  config.tefSlot (state.tx.chipTefIndex + state.tx.chipTef.length)

/-- The SEQ field of the entry at an address of the RAM. -/
def seqAt (ram : Nat → UInt8) (address : Nat) : Nat :=
  (objTsFromLe (fun other => ram (fifoData other)) address).seq

/-- The steps of the driver and of the controller. -/
inductive FaultLabel where
  /-- The controller puts a received frame into an empty FIFO. -/
  | receive (fifo : Nat) (object : List UInt8)
  /-- The controller has sent the frame of a FIFO, and puts an entry into the TEF. -/
  | chipSent (fifo : Nat) (entry : List UInt8)
  /-- The pass reads the receive FIFOs. -/
  | istRxif (outcome : ReadOutcome)
  /-- The pass handles a single entry of the TEF, with the luck of its two transfers. -/
  | istTefSingle (read uinc : Bool)
  /-- Another step of xmit, of the SPI engine, of the controller or of the interrupt thread. -/
  | tx (label : TxLabel)

/-- The rounds that are enough for each loop over the receive FIFOs. -/
def rxifRounds : Nat := 34

/-- `mcp25xxfd_can_ist_handle_rxif`, `none` where a loop does not come to an end. -/
def handleRxif (config : FaultConfig) (outcome : ReadOutcome) (ram : Nat → UInt8)
    (rxif : BitVec 32) (state : RxState) : Option RxState :=
  if rxif = 0 then some state
  else if config.bulk then
    -- The return code is not looked at, in either branch.
    (bulkReadFifos config.rx config.useBulkReleaseFifos outcome ram rxif rxifRounds state).map
      Prod.snd
  else (readFifos config.rx outcome ram rxif rxifRounds state).map Prod.snd

/-- `mcp25xxfd_can_ist_handle_tefif_handle_single`, with the luck of its two transfers. -/
def handleTefifHandleSingle (layout : TxLayout) (read uinc : Bool) (ram : Nat → UInt8)
    (tx : TxState echo) (queued : Queued) : TxState echo × Queued :=
  let tef := tx.tefAddress
  -- Neither return code is looked at, so the entry is transformed and queued in any case.
  let queued := if read then cmdReadn ram (fifoData tef) tef tefReadSize queued else queued
  let tx := if uinc then incrementTef layout tx else tx
  let (fifo, queued) := transformTef tef queued
  (markTxProcessed layout fifo
    { tx with
      queuedTef := tx.queuedTef ++ [fifo]
      tefAddress := nextTefAddress layout tx.tefAddress }, queued)

/-- The state after the receive FIFOs were read, with the objects that are queued and released. -/
def afterRxif (config : FaultConfig) (state : FaultState echo) (rx : RxState) : FaultState echo :=
  let fifos := rx.sfr.incremented.drop state.rx.sfr.incremented.length
  let objects := rx.queued.rxb.drop state.rx.queued.rxb.length
  { state with
    rx := rx
    rxifPending := false
    occupied := fifos.foldl (fun mask fifo => mask &&& ~~~(bit fifo)) state.occupied
    objects := state.objects ++ objects.map state.ledger.item
    released := state.released ++ fifos.map config.rx.fifoAddress }

/-- The state after a single entry of the TEF was handled. -/
def afterTefSingle (config : FaultConfig) (read uinc : Bool) (position : Ist)
    (state : FaultState echo) : FaultState echo :=
  let chip := state.tx
  let (tx, queued) :=
    handleTefifHandleSingle config.layout read uinc state.ram chip state.rx.queued
  let popped := if uinc then chip.chipTef.head?.toList else []
  { state with
    tx := { tx with ist := position }
    rx := { state.rx with queued := queued }
    objects := state.objects ++ [state.ledger.item chip.tefAddress]
    -- The controller drops its oldest entry, wherever the driver has read.
    released := state.released ++ popped.map fun _ => chip.chipTefUA config.layout }

/-- The state after another step, of which the begin and the end of a pass concern the queue. -/
def afterOther (state : FaultState echo) (label : TxLabel) (tx : TxState echo) :
    FaultState echo :=
  match label with
  | .istStatus _ =>
    if tx.ist = .idle then { state with tx := tx, statusRxif := state.occupied }
    else
      -- `mcp25xxfd_can_ist_handle_status` clears the queue before it does anything else.
      { state with
        tx := tx
        statusRxif := state.occupied
        rxifPending := true
        rx := { state.rx with queued := clearQueuedFifos state.rx.queued }
        objects := []
        released := [] }
  | .istProcessed =>
    { state with
      tx := tx
      rx := { state.rx with queued := clearQueuedFifos state.rx.queued }
      handed := state.handed ++ state.objects
      objects := []
      released := [] }
  | _ => { state with tx := tx }

/-- A step of the transmit path that may be taken as it is. -/
def mayTake (config : FaultConfig) (state : FaultState echo) (label : TxLabel) : Prop :=
  -- The entries of the TEF come and go with the bytes in the RAM, by labels of their own.
  appendsTef label = none ∧ popsTef config.layout state.tx label = none ∧
    -- An occupied receive FIFO raises RXIF.
    (label = .istStatus false → state.occupied = 0) ∧
    (label = .istTxatif → state.rxifPending = false)

instance (config : FaultConfig) (state : FaultState echo) (label : TxLabel) :
    Decidable (mayTake config state label) :=
  inferInstanceAs (Decidable (_ ∧ _ ∧ _ ∧ _))

/-- One step, `none` when it cannot be taken now. -/
def faultStep (config : FaultConfig) (state : FaultState echo) :
    FaultLabel → Option (FaultState echo)
  | .receive fifo object =>
    let address := config.rx.fifoAddress fifo
    if config.rx.split.rxFifoMask.getLsbD fifo ∧ state.occupied.getLsbD fifo = false ∧
        object.length = sizeofRx + config.rx.split.payloadSize then
      some { state with
        ram := patch (fifoData address) object state.ram
        occupied := state.occupied ||| bit fifo
        filled := Function.update state.filled address (state.filled address + 1) }
    else none
  | .chipSent fifo entry =>
    let address := config.nextSlot state
    let ram := patch (fifoData address) entry state.ram
    if entry.length = sizeofTef ∧ seqAt ram address = fifo then
      (txStep config.layout config.rx.split.txFifoMask state.tx (.chipSent fifo)).map fun tx =>
        -- A full TEF drops the entry.
        if state.tx.chipTef.length < config.rx.split.tefFifos then
          { state with
            tx := tx
            ram := ram
            filled := Function.update state.filled address (state.filled address + 1) }
        else { state with tx := tx }
    else none
  | .istRxif outcome =>
    if state.tx.ist = .txatif config.rx.split.txFifoStart ∧ state.rxifPending = true ∧
        state.tx.spiCompleting = none then
      (handleRxif config outcome state.ram state.statusRxif state.rx).map (afterRxif config state)
    else none
  | .istTefSingle read uinc =>
    if state.tx.spiCompleting = none then
      match state.tx.ist with
      | .tefCount (left + 1) => some (afterTefSingle config read uinc (.tefCount left) state)
      | .tefSingle => some (afterTefSingle config read uinc .tefConservative state)
      | _ => none
    else none
  | .tx label =>
    if mayTake config state label then
      (txStep config.layout config.rx.split.txFifoMask state.tx label).map (afterOther state label)
    else none

/-- The state after the setup, with whatever is in the RAM and in the memory of the driver. -/
def FaultState.opened (config : FaultConfig) (ram : Nat → UInt8) (rx : RxState) :
    FaultState echo where
  tx := TxState.opened config.layout
  rx := { rx with queued := clearQueuedFifos rx.queued }
  ram := ram
  occupied := 0
  statusRxif := 0
  rxifPending := false
  filled _ := 0
  objects := []
  handed := []
  released := []

/-- The machine of the passes. -/
def faultMachine (config : FaultConfig) (echo : EchoTable Nat) (ram : Nat → UInt8) (rx : RxState) :
    Machine (FaultState echo) FaultLabel where
  start := FaultState.opened config ram rx
  step := faultStep config

/-- The state with other bytes in the memory that the driver reads the objects into. -/
def FaultState.withMemory (state : FaultState echo) (memory : Nat → UInt8) : FaultState echo :=
  { state with rx := { state.rx with queued := { state.rx.queued with fifoData := memory } } }

/-- The header of an entry of the TEF, as the driver is to queue it. -/
def tefHeaderOf (ram : Nat → UInt8) (address : Nat) : ObjTs :=
  let header := objTsFromLe (fun other => ram (fifoData other)) address
  { header with flags := header.flags ||| canObjFlagsCustomIstef, ts := header.ts <<< 8 }

/-- A queued object is one that the controller has, with all its bytes. -/
def Complete (config : FaultConfig) (state : FaultState echo) (queued : Queued) (obj : Nat) :
    Prop :=
  (∃ fifo, state.occupied.getLsbD fifo = true ∧ config.rx.fifoAddress fifo = obj ∧
      queued.header obj = headerOf state.ram obj ∧
      queued.data obj (config.rx.length state.ram fifo) =
        window (fifoData (obj + sizeofObjTs)) (config.rx.length state.ram fifo) state.ram) ∨
    state.tx.chipTef ≠ [] ∧ state.tx.chipTefUA config.layout = obj ∧
      queued.header obj = tefHeaderOf state.ram obj

/-- The failures of a step that do no harm. -/
def PassFits (config : FaultConfig) (state : FaultState echo) : FaultLabel → Prop
  | .istRxif outcome =>
    if config.bulk then BulkPassFits config.useBulkReleaseFifos outcome state.statusRxif
    else SimplePassFits config.rx outcome state.ram state.statusRxif
  | .istTefSingle read uinc => read = true ∧ uinc = true
  | _ => True

/-- What is to hold of a step, and after it. -/
structure PassSound (config : FaultConfig) (state : FaultState echo) (label : FaultLabel)
    (next : FaultState echo) : Prop where
  /-- No object is handed to `mcp25xxfd_process_queued_fifos` twice. -/
  once : next.handed.Nodup
  /-- What the pass has released, it has queued. -/
  queued : ∀ obj ∈ next.released, obj ∈ next.rx.queued.rxb
  /-- What the step queues is complete, whatever was in the memory before. -/
  complete : ∀ memory after, faultStep config (state.withMemory memory) label = some after →
    ∀ obj ∈ after.rx.queued.rxb.drop state.rx.queued.rxb.length,
      Complete config state after.rx.queued obj
  /-- Reading the receive FIFOs from here comes to an end. -/
  ends : ∀ outcome, PassFits config next (.istRxif outcome) →
    handleRxif config outcome next.ram next.statusRxif next.rx ≠ none

end OpenwrtMisc.Mcp25xxfd
