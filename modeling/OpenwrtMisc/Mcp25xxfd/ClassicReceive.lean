import OpenwrtMisc.Mcp25xxfd.Delivery
import OpenwrtMisc.Mcp25xxfd.FaultyPass

/-! The classic frames that are received by either way to read the FIFOs, and their lengths. -/

namespace OpenwrtMisc.Mcp25xxfd

open BitMask

/-- The two ways to read the receive FIFOs, the second one with its module parameter. -/
inductive ReadPath where
  | readFifos
  | bulkReadFifos (useBulkReleaseFifos : Bool)
  deriving DecidableEq, Repr

/-- A pass over the receive FIFOs, `none` where it does not come to an end. -/
def ReadPath.run (path : ReadPath) (config : RxConfig) (outcome : ReadOutcome) (ram : Nat → UInt8)
    (rxif : BitVec 32) (fuel : Nat) (state : RxState) : Option (Int × RxState) :=
  match path with
  | .readFifos => Mcp25xxfd.readFifos config outcome ram rxif fuel state
  | .bulkReadFifos useBulkReleaseFifos =>
    Mcp25xxfd.bulkReadFifos config useBulkReleaseFifos outcome ram rxif fuel state

/-- The header and the data of an object are as a pass over the receive FIFOs has left them. -/
structure Untouched (config : RxConfig) (left queued : Queued) (obj : Nat) : Prop where
  header : queued.header obj = left.header obj
  data : ∀ address, obj + sizeofObjTs ≤ address →
    address < obj + sizeofObjTs + config.split.payloadSize →
    queued.fifoData address = left.fifoData address

/-- What is asked of a classic frame that is delivered for an object. -/
structure WithinEight (config : RxConfig) (ram : Nat → UInt8) (obj : Nat) (frame : RxFrame) :
    Prop where
  canDlc : frame.len ≤ 8
  copied : frame.data.length ≤ 8
  /-- The bytes end where the object does, and they are those that the controller has for it. -/
  inside : frame.data.length ≤ config.split.payloadSize
  own : frame.data = window (fifoData (obj + sizeofObjTs)) frame.data.length ram

/-- A frame that is delivered for an object stays within eight bytes, all of which are counted. -/
def ClassicSound {echo : EchoTable Nat} (config : RxConfig) (ram : Nat → UInt8) (obj : Nat)
    (before after : Delivery echo) : Prop :=
  ∀ frame, after.handled = before.handled ++ [.delivered obj frame] →
    WithinEight config ram obj frame ∧ after.rxBytes = before.rxBytes + frame.len

/--
What a pass has queued so far is what the controller has, as far as the shorter read goes.

This asks for nothing of a transfer that fails, because what it is for is not queued without it.
-/
def FromController (ram : Nat → UInt8) (before queued : Queued) : Prop :=
  ∃ objs, queued.rxb = before.rxb ++ objs ∧ ∀ obj ∈ objs,
    queued.header obj = headerOf ram obj ∧ Loaded ram obj fifoMinSize queued.fifoData

variable {config : RxConfig} {outcome : ReadOutcome} {ram : Nat → UInt8} {before queued : Queued}
  {rxif : BitVec 32}

/-- A part of what is loaded is loaded. -/
theorem Loaded.part {first address whole count : Nat} {data : Nat → UInt8}
    (loaded : Loaded ram first whole data) (low : first ≤ address)
    (high : address + count ≤ first + whole) : Loaded ram address count data := by
  -- Every address of the part is one of the whole.
  intro other above below
  exact loaded other (by omega) (by omega)

/-- A further transfer brings the same bytes of the controller again, or other ones. -/
theorem Loaded.cmdReadn {address count : Nat} (loaded : Loaded ram address count queued.fifoData)
    (start size : Nat) :
    Loaded ram address count (cmdReadn ram (fifoData start) start size queued).fifoData := by
  -- A byte is one that the transfer brings again, or one that it does not reach.
  intro other above below
  by_cases inside : start ≤ other ∧ other < start + size
  · exact loaded_patch ram start size queued.fifoData other inside.1 inside.2
  · -- A byte that the transfer does not reach stays the one that was loaded before.
    have kept : patch start (window (fifoData start) size ram) queued.fifoData other =
        queued.fifoData other := by
      apply patch_outside
      rw [length_window]
      omega
    exact kept.trans (loaded other above below)

/-- The header of an object that is loaded is loaded. -/
theorem Loaded.header {obj : Nat} {data : Nat → UInt8} (loaded : Loaded ram obj fifoMinSize data) :
    Loaded ram obj sizeofObjTs data :=
  loaded.part (Nat.le_refl obj) (Nat.add_le_add_left (by decide) obj)

/-- Nothing is queued before the first round. -/
theorem FromController.refl (ram : Nat → UInt8) (queued : Queued) :
    FromController ram queued queued :=
  ⟨[], (List.append_nil _).symm, fun _ member => absurd member List.not_mem_nil⟩

/-- A transfer leaves the queue as it is. -/
theorem FromController.cmdReadn (inv : FromController ram before queued) (start size : Nat) :
    FromController ram before (cmdReadn ram (fifoData start) start size queued) := by
  -- The list of objects is not touched, and what is loaded stays loaded.
  obtain ⟨objs, rxb, complete⟩ := inv
  refine ⟨objs, rxb, fun obj member => ?_⟩
  obtain ⟨header, loaded⟩ := complete obj member
  exact ⟨header, loaded.cmdReadn start size⟩

/-- An object that is loaded is queued as the controller has it. -/
theorem FromController.transformRx (inv : FromController ram before queued) (table : DlcTable)
    {rx : Nat} (loaded : Loaded ram rx fifoMinSize queued.fifoData) :
    FromController ram before (transformRx table rx queued).2 := by
  -- The object is put behind those that are queued, with a header that is the controller's.
  obtain ⟨objs, rxb, complete⟩ := inv
  rw [transformRx_eq table loaded.header]
  refine ⟨objs ++ [rx], ?_, fun obj member => ?_⟩
  · rw [rxb, List.append_assoc]
  · -- The object is the new one, whatever was queued under its address before, or an old one.
    by_cases here : obj = rx
    · rw [here]
      exact ⟨Function.update_self _ _ _, loaded⟩
    · have old := (List.mem_append.mp member).resolve_right fun new =>
        here (List.mem_singleton.mp new)
      obtain ⟨header, earlier⟩ := complete obj old
      exact ⟨(Function.update_of_ne here _ _).trans header, earlier⟩

/-- A round of the simple loop queues what it has read, whichever of its transfers fail. -/
theorem FromController.readFifo {state : RxState} (inv : FromController ram before state.queued)
    (config : RxConfig) (outcome : ReadOutcome) (fifo : Nat) :
    FromController ram before (readFifo config outcome ram fifo state).2.queued := by
  -- The first read fails, or it brings the whole object that is queued.
  rw [Mcp25xxfd.readFifo]
  by_cases read : outcome.read fifo = true
  · -- The read succeeds, so the object is loaded and is queued.
    have loaded := loaded_patch ram (config.fifoAddress fifo) fifoMinSize state.queued.fifoData
    have first := (inv.cmdReadn (config.fifoAddress fifo) fifoMinSize).transformRx config.table
      loaded
    -- What follows the first read adds bytes, and does not change the queue.
    have rest := first.cmdReadn (config.fifoAddress fifo + fifoMinSize)
    simp only [read, if_true]
    generalize Mcp25xxfd.transformRx config.table _ _ = transformed at first rest ⊢
    generalize min transformed.1 _ = len
    generalize normalReleaseFifos outcome.release fifo (fifo + 1) state.sfr = released
    by_cases more : len > fifoMinPayloadSize
    · simp only [more, true_and, if_true]
      split
      · exact first
      · split
        · exact rest _
        · exact rest _
    · simp only [more, false_and, if_false]
      split
      · exact first
      · exact first
  · -- A failed read leaves the round before anything is queued.
    simp only [read]
    exact inv

/-- The simple loop queues what it has read, however it ends. -/
theorem FromController.readFifosLoop {ret : Int} {after : RxState} {fuel : Nat} :
    ∀ {i : Int} {state : RxState}, FromController ram before state.queued →
      readFifosLoop config outcome ram rxif fuel i state = some (ret, after) →
      FromController ram before after.queued := by
  -- The induction is on the rounds.
  induction fuel with
  | zero =>
    intro _ _ _ ran
    cases ran
  | succ fuel ih =>
    intro i state inv ran
    rw [Mcp25xxfd.readFifosLoop] at ran
    split at ran
    · obtain ⟨set, _, ran⟩ := Option.bind_eq_some_iff.mp ran
      have round := inv.readFifo config outcome i.toNat
      cases set with
      | false => exact ih inv ran
      | true =>
        simp only [if_true] at ran
        split at ran
        · -- The round has failed, and the loop is left with what was queued by then.
          rw [(Prod.mk.inj (Option.some.inj ran)).2] at round
          exact round
        · exact ih round ran
    · rw [(Prod.mk.inj (Option.some.inj ran)).2] at inv
      exact inv

/-- The objects of a range that were read are queued one after the other. -/
theorem FromController.preprocess {count : Nat} : ∀ {first : Nat} {state : RxState},
    FromController ram before state.queued →
      (∀ fifo, first ≤ fifo → fifo < first + count →
        Loaded ram (config.fifoAddress fifo) fifoMinSize state.queued.fifoData) →
      FromController ram before (preprocess config count first state).queued := by
  induction count with
  | zero => exact fun inv _ => inv
  | succ count ih =>
    intro first state inv loaded
    have here := loaded first (Nat.le_refl first) (by omega)
    have queued := inv.transformRx config.table here
    -- The bytes stay where they are, so the objects behind the first one are still loaded.
    apply ih queued
    intro fifo above below
    exact loaded fifo (by omega) (by omega)

/-- A round of the fast loop queues what it has read, whichever of its transfers fail. -/
theorem FromController.bulkReadFifoRange {state : RxState}
    (inv : FromController ram before state.queued) (useBulkReleaseFifos : Bool)
    (outcome : ReadOutcome) {start stop : Nat} (range : RxRange config.split start stop) :
    FromController ram before
      (bulkReadFifoRange config useBulkReleaseFifos outcome ram start stop state).2.queued := by
  -- The first FIFO of the range is a receive FIFO, and the rest follows from where it lies.
  obtain ⟨above, nonempty, below⟩ := range
  have first : config.Rx start := ⟨above, by omega⟩
  have least : fifoMinSize ≤ sizeofRx + config.split.payloadSize :=
    Nat.add_le_add_left config.fifoMinPayloadSize_le sizeofRx
  rw [Mcp25xxfd.bulkReadFifoRange]
  by_cases read : outcome.read start = true
  · have moved := inv.cmdReadn (config.fifoAddress start)
      ((stop - start) * (sizeofRx + config.split.payloadSize))
    have loaded := loaded_patch ram (config.fifoAddress start)
      ((stop - start) * (sizeofRx + config.split.payloadSize)) state.queued.fifoData
    simp only [read, if_true]
    generalize (if useBulkReleaseFifos = true then _ else _ : Int × Sfr) = released
    split
    · exact moved
    · -- Each object of the range lies inside what the transfer has brought.
      apply FromController.preprocess moved
      intro fifo low high
      have rx : config.Rx fifo := ⟨by omega, by omega⟩
      have within := RxConfig.fifoAddress_within first rx low (by omega : fifo < stop)
      exact loaded.part (by omega) (by omega)
  · simp only [read]
    exact inv

/-- The inner loop of the fast way stays among the receive FIFOs, and takes bits away only. -/
theorem takeRange_rx {fuel : Nat} : ∀ {i start next first : Int} {mask rest : BitVec 32},
    takeRange fuel i start mask = some (next, first, rest) →
      (∀ fifo : Nat, mask.getLsbD fifo = true → config.Rx fifo) →
      0 ≤ start → config.Rx start.toNat → i ≤ start →
      0 ≤ first ∧ config.Rx first.toNat ∧ first ≤ start ∧
        ∀ fifo : Nat, rest.getLsbD fifo = true → config.Rx fifo := by
  -- The induction is on the fuel of the loop.
  induction fuel with
  | zero =>
    intro _ _ _ _ _ _ taken
    cases taken
  | succ fuel ih =>
    intro i start next first mask rest taken rx positive here below
    rw [takeRange] at taken
    obtain ⟨set, tested, taken⟩ := Option.bind_eq_some_iff.mp taken
    cases set with
    | false =>
      obtain ⟨_, same⟩ := Prod.mk.inj (Option.some.inj taken)
      obtain ⟨rfl, rfl⟩ := Prod.mk.inj same
      exact ⟨positive, here, Int.le_refl _, rx⟩
    | true =>
      -- The bit that was seen is the new start.
      rw [testBit] at tested
      split at tested
      · rename_i inside
        have seen := rx i.toNat (Option.some.inj tested)
        have fewer : ∀ fifo : Nat, (mask &&& ~~~(bit i.toNat)).getLsbD fifo = true →
            config.Rx fifo := by
          intro fifo left
          rw [BitVec.getLsbD_and, Bool.and_eq_true] at left
          exact rx fifo left.1
        obtain ⟨low, inRx, down, others⟩ := ih taken fewer inside.1 seen (by omega)
        exact ⟨low, inRx, by omega, others⟩
      · cases tested

/-- The fast loop queues what it has read, however it ends. -/
theorem FromController.bulkReadFifosLoop {useBulkReleaseFifos : Bool} {ret : Int} {after : RxState}
    {fuel : Nat} : ∀ {i : Int} {mask : BitVec 32} {state : RxState},
      FromController ram before state.queued →
      (∀ fifo : Nat, mask.getLsbD fifo = true → config.Rx fifo) →
      bulkReadFifosLoop config useBulkReleaseFifos outcome ram fuel i mask state =
        some (ret, after) →
      FromController ram before after.queued := by
  -- The induction is on the fuel, over any index and any rest of the mask.
  induction fuel with
  | zero =>
    intro _ _ _ _ _ ran
    cases ran
  | succ fuel ih =>
    intro i mask state inv rx ran
    rw [Mcp25xxfd.bulkReadFifosLoop] at ran
    split at ran
    · obtain ⟨set, tested, ran⟩ := Option.bind_eq_some_iff.mp ran
      cases set with
      | false => exact ih inv rx ran
      | true =>
        simp only [if_true] at ran
        obtain ⟨⟨next, start, rest⟩, taken, ran⟩ := Option.bind_eq_some_iff.mp ran
        rw [testBit] at tested
        split at tested
        · rename_i inside
          -- Both ends of the range are receive FIFOs, so all of it is.
          have top := rx i.toNat (Option.some.inj tested)
          obtain ⟨low, bottom, down, fewer⟩ :=
            takeRange_rx taken rx inside.1 top (Int.le_refl i)
          have range : RxRange config.split start.toNat (i.toNat + 1) :=
            ⟨bottom.1, by omega, top.2⟩
          have round := inv.bulkReadFifoRange useBulkReleaseFifos outcome range
          dsimp only at ran
          split at ran
          · rw [(Prod.mk.inj (Option.some.inj ran)).2] at round
            exact round
          · exact ih round fewer ran
        · cases tested
    · rw [(Prod.mk.inj (Option.some.inj ran)).2] at inv
      exact inv

/-- Either way to read the FIFOs queues what it has read, whichever transfers fail. -/
theorem ReadPath.fromController {path : ReadPath} {fuel : Nat} {ret : Int} {state after : RxState}
    (contained : Subset rxif config.split.rxFifoMask)
    (ran : path.run config outcome ram rxif fuel state = some (ret, after)) :
    FromController ram state.queued after.queued := by
  -- Before the pass nothing is queued by it, and each round keeps what is asked.
  have start := FromController.refl ram state.queued
  cases path with
  | readFifos => exact start.readFifosLoop ran
  | bulkReadFifos useBulkReleaseFifos =>
    exact start.bulkReadFifosLoop (fun _ => RxConfig.rx_of_mask contained) ran

variable {echo : EchoTable Nat} {state : Delivery echo} {obj : Nat}

/-- The frame that a classic object is delivered as. -/
def classicFrame (table : DlcTable) (queued : Queued) (obj : Nat) : RxFrame where
  canId := mcpidToCanid (queued.header obj).id (queued.header obj).flags
  brs := false
  esi := false
  len := (queued.header obj).dlc
  data := queued.data obj (table.canDlc2len (queued.header obj).dlc)

/-- What is asked of a call is asked of the one frame that it may deliver. -/
theorem classicSound_iff (classic : (state.queued.header obj).has canObjFlagsFdf = false)
    (skb : Bool) :
    ClassicSound config ram obj state (processQueuedRx config.table skb obj state).2 ↔
      (skb = true → WithinEight config ram obj (classicFrame config.table state.queued obj) ∧
        config.table.canDlc2len (state.queued.header obj).dlc =
          (state.queued.header obj).dlc) := by
  -- The two sides are compared for the one frame.
  have normal : processQueuedRx config.table skb obj state =
      canTransformRxNormal config.table skb obj state := by
    rw [processQueuedRx, classic, if_neg Bool.false_ne_true]
  -- Such an object goes to the function for classic frames, which makes one frame of it at most.
  rw [normal, ClassicSound]
  cases skb with
  | false =>
    refine ⟨fun _ none => absurd none Bool.false_ne_true, fun _ frame delivered => ?_⟩
    -- Without an skb the object is counted as dropped, and no frame is delivered.
    have entries := List.append_cancel_left delivered
    cases entries
  | true =>
    constructor
    · intro sound _
      obtain ⟨within, counted⟩ := sound (classicFrame config.table state.queued obj) rfl
      exact ⟨within, Nat.add_left_cancel counted⟩
    · intro holds frame delivered
      obtain ⟨within, counted⟩ := holds rfl
      -- The frame is the one that the call delivers.
      have entries := List.append_cancel_left delivered
      have same : classicFrame config.table state.queued obj = frame :=
        (Handled.delivered.inj (List.singleton_inj.mp entries)).2
      rw [← same]
      exact ⟨within, congrArg (state.rxBytes + ·) counted⟩

/-- An entry of the TEF that is read after a pass leaves its objects alone. -/
theorem Untouched.tefSingle (config : FaultConfig) {left queued : Queued} {fifo place : Nat}
    (rx : config.rx.Rx fifo) (same : Untouched config.rx left queued (config.rx.fifoAddress fifo))
    (read uinc : Bool) (ram : Nat → UInt8) {tx : TxState echo}
    (tef : tx.tefAddress = config.tefSlot place) :
    Untouched config.rx left
      (handleTefifHandleSingle config.layout read uinc ram tx queued).2
      (config.rx.fifoAddress fifo) := by
  -- The slot of the entry and the object of the FIFO do not overlap.
  have apart := config.apart fifo rx
  have within := config.tefSlot_within place
  have other : config.rx.fifoAddress fifo ≠ tx.tefAddress := by
    rw [tef]
    exact (config.tefSlot_ne rx place).symm
  have sizes : sizeofObjTs = sizeofRx := rfl
  have shorter : tefReadSize ≤ sizeofTef := by decide
  refine ⟨?_, fun address low high => ?_⟩
  · -- Only the header at the entry is written, whether it could be read or not.
    have kept : (if read then cmdReadn ram (fifoData tx.tefAddress) tx.tefAddress tefReadSize queued
        else queued).header = queued.header := by
      cases read <;> rfl
    refine (Function.update_of_ne other _ _).trans ((Function.update_of_ne other _ _).trans ?_)
    exact (congrFun kept _).trans same.header
  · cases read with
    | false => exact same.data address low high
    | true =>
      -- The transfer ends where the slot does, so it does not reach the object.
      have kept : patch tx.tefAddress (window (fifoData tx.tefAddress) tefReadSize ram)
          queued.fifoData address = queued.fifoData address := by
        apply patch_outside
        rw [length_window, tef]
        omega
      exact kept.trans (same.data address low high)

/-- The objects that are delivered before it leave an object alone. -/
theorem Untouched.processObj {left : Queued} (same : Untouched config left state.queued obj)
    (table : DlcTable) (skb : Bool) (first : Nat) :
    Untouched config left (processObj table skb first state).2.queued obj := by
  -- Delivering an object does not change the queued data.
  rw [processObj_queued]
  exact same

/-- The object of the first receive FIFO is read by the fast way, with the header that it has. -/
theorem bulkReadFifos_first (ram : Nat → UInt8) :
    ∃ after, ReadPath.run (.bulkReadFifos true) classicConfig .good ram (bit 1) 34 classicRx =
        some (0, after) ∧
      0x180 ∈ after.queued.rxb.drop classicRx.queued.rxb.length ∧
      after.queued.header 0x180 = headerOf ram 0x180 := by
  -- The transfers succeed here, so the pass does what the abstract read says.
  obtain ⟨_, after, _, ran, _, _, reads⟩ :=
    bulkReadFifos_refines classicConfig true ram (bit 1) (by decide) classicRx
  obtain ⟨objs, rxb, perm⟩ := reads.objects
  have first : 1 ∈ fifosOf (bit 1) := by decide
  refine ⟨after, ran 34 (by decide), ?_, reads.headers 1 first⟩
  rw [rxb, List.drop_left]
  exact perm.mem_iff.mpr (List.mem_map_of_mem first)

/-- The data of an object that was left alone is that of the controller, up to eight bytes. -/
theorem Untouched.data_eq {left queued : Queued} (same : Untouched config left queued obj)
    (loaded : Loaded ram obj fifoMinSize left.fifoData) {count : Nat} (short : count ≤ 8) :
    queued.data obj count = window (fifoData (obj + sizeofObjTs)) count ram := by
  -- The eight bytes lie inside the object, and the shorter read has brought them.
  have least := config.fifoMinPayloadSize_le
  have sizes := fifoMinSize_eq
  have eight : fifoMinPayloadSize = 8 := rfl
  calc queued.data obj count = window (obj + sizeofObjTs) count left.fifoData :=
        window_congr fun address low high => same.data address low (by omega)
    _ = window (fifoData (obj + sizeofObjTs)) count ram :=
        window_loaded (loaded.part (by omega) (by omega))

/--
A classic object is delivered within eight bytes, all of them its own and all of them counted,
exactly when its DLC is no more than eight or there is no skb for it.

This holds for either way to read the FIFOs, whichever of their transfers fail.
-/
theorem classicReceive_iff (config : RxConfig) (path : ReadPath) (outcome : ReadOutcome)
    (ram : Nat → UInt8) (rxif : BitVec 32) (contained : Subset rxif config.split.rxFifoMask)
    (fuel : Nat) (before after : RxState) (ret : Int)
    (ran : path.run config outcome ram rxif fuel before = some (ret, after)) (obj : Nat)
    (queued : obj ∈ after.queued.rxb.drop before.queued.rxb.length)
    (classic : (headerOf ram obj).has canObjFlagsFdf = false) (echo : EchoTable Nat)
    (state : Delivery echo) (same : Untouched config after.queued state.queued obj) (skb : Bool) :
    ClassicSound config ram obj state (processQueuedRx config.table skb obj state).2 ↔
      (skb = true → (headerOf ram obj).dlc ≤ 8) := by
  -- What the pass has queued is what the controller has, and the delivery finds it as it was.
  obtain ⟨objs, rxb, complete⟩ := ReadPath.fromController contained ran
  rw [rxb, List.drop_left] at queued
  obtain ⟨header, loaded⟩ := complete obj queued
  have own : state.queued.header obj = headerOf ram obj := same.header.trans header
  rw [← own] at classic ⊢
  rw [classicSound_iff classic]
  refine imp_congr_right fun _ => ⟨fun sound => sound.1.canDlc, fun short => ?_⟩
  -- Up to a DLC of eight the three lengths are one.
  have length := config.table.classic _ short
  have copied : (classicFrame config.table state.queued obj).data.length =
      (state.queued.header obj).dlc := by
    rw [classicFrame, Queued.data, length_window, length]
  refine ⟨⟨short, ?_, ?_, ?_⟩, length⟩
  · rw [copied]
    exact short
  · rw [copied]
    exact Nat.le_trans short config.fifoMinPayloadSize_le
  · rw [copied]
    show state.queued.data obj (config.table.canDlc2len _) = _
    rw [length]
    exact same.data_eq loaded short

/-- A classic frame of seven bytes is delivered as it is. -/
theorem classicReceive_iff_seven :
    ∃ after,
      ReadPath.run (.bulkReadFifos true) classicConfig .good (fun _ => 7) (bit 1) 34 classicRx =
        some (0, after) ∧
      ∀ skb, ClassicSound classicConfig (fun _ => 7) 0x180
          (Delivery.begun (EchoTable.ofFunction Nat) after.queued)
          (processQueuedRx classicConfig.table skb 0x180 (Delivery.begun _ after.queued)).2 ↔
        (skb = true → (headerOf (fun _ => 7) 0x180).dlc ≤ 8) := by
  -- The FIFO is the first one, whose object is read as a whole.
  obtain ⟨after, ran, queued, _⟩ := bulkReadFifos_first fun _ => 7
  refine ⟨after, ran, fun skb => ?_⟩
  exact classicReceive_iff classicConfig (.bulkReadFifos true) .good (fun _ => 7) (bit 1)
    (by decide) 34 classicRx after 0 ran 0x180 queued (by decide) _ (Delivery.begun _ after.queued)
    ⟨rfl, fun _ _ _ => rfl⟩ skb

/-- A classic frame with a DLC of nine is delivered with more bytes than it has room for. -/
theorem dlcNine_overflows :
    ¬ ∀ (config : RxConfig) (path : ReadPath) (outcome : ReadOutcome) (ram : Nat → UInt8)
      (rxif : BitVec 32), Subset rxif config.split.rxFifoMask →
      ∀ (fuel : Nat) (before after : RxState) (ret : Int),
        path.run config outcome ram rxif fuel before = some (ret, after) →
      ∀ obj ∈ after.queued.rxb.drop before.queued.rxb.length,
        (headerOf ram obj).has canObjFlagsFdf = false →
      ∀ (echo : EchoTable Nat) (state : Delivery echo),
        Untouched config after.queued state.queued obj →
      ∀ skb, ClassicSound config ram obj state (processQueuedRx config.table skb obj state).2 := by
  -- A FIFO of bytes that are all nine has a frame with this DLC.
  intro claim
  obtain ⟨after, ran, queued, header⟩ := bulkReadFifos_first fun _ => 9
  have sound := claim classicConfig (.bulkReadFifos true) .good (fun _ => 9) (bit 1) (by decide) 34
    classicRx after 0 ran 0x180 queued (by decide) (EchoTable.ofFunction Nat)
    (Delivery.begun _ after.queued) ⟨rfl, fun _ _ _ => rfl⟩ true
  have classic : ((Delivery.begun (EchoTable.ofFunction Nat) after.queued).queued.header
      0x180).has canObjFlagsFdf = false := by
    show (after.queued.header 0x180).has _ = false
    rw [header]
    decide
  obtain ⟨within, _⟩ := (classicSound_iff classic true).mp sound rfl
  -- The DLC is what the frame says its length is.
  have short : (after.queued.header 0x180).dlc ≤ 8 := within.canDlc
  rw [header] at short
  exact absurd short (by decide)

end OpenwrtMisc.Mcp25xxfd
