import OpenwrtMisc.Lib.Ring
import OpenwrtMisc.Mcp25xxfd.FaultMachine

/-! Failing transfers that do no harm: each object is handed on once, whole, and then released. -/

namespace OpenwrtMisc.Mcp25xxfd

open BitMask

variable {echo : EchoTable Nat} {config : FaultConfig} {state next : FaultState echo}

/-- The highest byte of a word is shifted out of it, as the unread byte of a timestamp is. -/
theorem le32ToCpu_shiftLeft {first second : Nat → UInt8} {address : Nat}
    (same : ∀ k < 3, first (address + k) = second (address + k)) :
    le32ToCpu first address <<< 8 = le32ToCpu second address <<< 8 := by
  have lowest := same 0 (by decide)
  rw [Nat.add_zero] at lowest
  apply BitVec.eq_of_getLsbD_eq
  intro i inside
  -- The bit comes from one of the lower three bytes, or it is a zero that was shifted in.
  have low : i - 8 - 8 - 8 < 8 := by omega
  simp only [le32ToCpu, BitVec.getLsbD_shiftLeft, BitVec.getLsbD_append, lowest,
    same 1 (by decide), same 2 (by decide), low, if_true]

/-- The eleven bytes that are read of an entry are enough to queue it as it is to be. -/
theorem transformTef_eq (ram : Nat → UInt8) (tef : Nat) (queued : Queued) :
    let read := cmdReadn ram (fifoData tef) tef tefReadSize queued
    transformTef tef read = (seqAt ram tef,
      { read with
        header := Function.update queued.header tef (tefHeaderOf ram tef)
        rxb := queued.rxb ++ [tef] }) := by
  -- The three words of the entry are read back byte by byte.
  intro read
  have loaded : ∀ k < 11, read.fifoData (tef + k) = ram (fifoData (tef + k)) := by
    intro k inside
    exact loaded_patch ram tef tefReadSize queued.fifoData (tef + k) (by omega)
      (Nat.add_lt_add_left inside tef)
  have first := loaded 0 (by decide)
  rw [Nat.add_zero] at first
  -- Only the timestamp has a byte that was not read.
  have decoded : objTsFromLe read.fifoData tef =
      { objTsFromLe (fun other => ram (fifoData other)) tef with
        ts := le32ToCpu read.fifoData (tef + 8) } := by
    simp only [objTsFromLe, le32ToCpu, Nat.add_assoc, Nat.reduceAdd, first, loaded 1, loaded 2,
      loaded 3, loaded 4, loaded 5, loaded 6, loaded 7, Nat.reduceLT]
  have shifted : le32ToCpu read.fifoData (tef + 8) <<< 8 =
      le32ToCpu (fun other => ram (fifoData other)) (tef + 8) <<< 8 := by
    apply le32ToCpu_shiftLeft
    intro k inside
    have byte := loaded (8 + k) (by omega)
    rw [← Nat.add_assoc] at byte
    exact byte
  simp only [transformTef, decoded, addtoQueuedFifos, Function.update_self, Function.update_idem,
    shifted]
  rfl

/-- What holds between two steps whose failures do no harm. -/
structure FaultInv (config : FaultConfig) (state : FaultState echo) : Prop where
  tx : TxInv config.layout state.tx
  /-- The entries of the TEF are in the RAM, one behind the other around the ring. -/
  entries : ringContents config.rx.split.tefFifos
    (fun slot => seqAt state.ram (config.tefua + slot * sizeofTef)) state.tx.chipTefIndex
    state.tx.chipTef.length = state.tx.chipTef
  occupied : Subset state.occupied config.rx.split.rxFifoMask
  status : Subset state.statusRxif config.rx.split.rxFifoMask
  /-- Nothing is released between the read of the status and that of the receive FIFOs. -/
  pending : state.rxifPending = true → Subset state.statusRxif state.occupied
  sound : state.ledger.Sound
  /-- What the controller still has was not queued. -/
  received : ∀ fifo, state.occupied.getLsbD fifo = true →
    state.ledger.Untaken (config.rx.fifoAddress fifo)
  sent : ∀ place < state.tx.chipTef.length,
    state.ledger.Untaken (config.tefSlot (state.tx.chipTefIndex + place))
  queued : ∀ obj ∈ state.released, obj ∈ state.rx.queued.rxb

/-- The invariant holds after the setup, whatever is in the RAM and in the memory. -/
theorem faultInv_opened (config : FaultConfig) (ram : Nat → UInt8) (rx : RxState) :
    FaultInv config (FaultState.opened config ram rx : FaultState echo) where
  tx := txInv_opened config.layout
  entries := rfl
  occupied := by rw [subset_iff]; intro fifo set; simp [FaultState.opened] at set
  -- Nothing is in the TEF, in a receive FIFO or on its way to the network.
  status := by rw [subset_iff]; intro fifo set; simp [FaultState.opened] at set
  pending waits := Bool.noConfusion waits
  sound := Ledger.sound_nil _
  received fifo set := by simp [FaultState.opened] at set
  sent place inside := absurd inside (Nat.not_lt_zero place)
  queued obj member := absurd member List.not_mem_nil

/-- The entries of the TEF are distinct FIFOs, so they are no more than there are slots. -/
theorem TxInv.length_le {layout : TxLayout} {tx : TxState echo} (inv : TxInv layout tx) :
    tx.chipTef.length ≤ layout.tefFifos := by
  -- A frame is at one place at most, so it has one entry at most.
  have once : ∀ fifo, tx.chipTef.count fifo ≤ 1 := by
    intro fifo
    have bounded := inv.places_le fifo
    unfold TxState.places TxState.atChip at bounded
    omega
  have inRange : ∀ fifo ∈ tx.chipTef,
      layout.txFifoStart ≤ fifo ∧ fifo < layout.txFifoStart + layout.txFifos := by
    intro fifo member
    have here := List.count_pos_iff.mpr member
    apply inv.inRange
    unfold TxState.places TxState.atChip
    omega
  exact Nat.le_trans (length_le_txFifos once inRange) layout.tefHolds

/-- A slot lies inside the TEF. -/
theorem FaultConfig.tefSlot_within (config : FaultConfig) (place : Nat) :
    config.tefua ≤ config.tefSlot place ∧
      config.tefSlot place + sizeofTef ≤
        config.tefua + config.rx.split.tefFifos * sizeofTef := by
  have some : 0 < config.rx.split.tefFifos :=
    Nat.lt_of_lt_of_le config.rx.split.nonempty config.rx.split.tefHolds
  have below := Nat.mod_lt place some
  -- The last slot ends where the TEF does.
  have last : (place % config.rx.split.tefFifos + 1) * sizeofTef ≤
      config.rx.split.tefFifos * sizeofTef := Nat.mul_le_mul_right _ below
  rw [Nat.add_mul, Nat.one_mul] at last
  unfold FaultConfig.tefSlot
  omega

/-- Slots at different places of the ring do not meet. -/
theorem FaultConfig.tefSlot_apart (config : FaultConfig) {first second : Nat}
    (ordered : first < second) (near : second < first + config.rx.split.tefFifos) :
    config.tefSlot first + sizeofTef ≤ config.tefSlot second ∨
      config.tefSlot second + sizeofTef ≤ config.tefSlot first := by
  -- Less than a revolution apart they fall on different cells, each of which has its own bytes.
  have different := ring_cell_ne ordered near
  unfold FaultConfig.tefSlot sizeofTef
  omega

/-- A slot of the TEF is not the address of a receive FIFO. -/
theorem FaultConfig.tefSlot_ne (config : FaultConfig) {fifo : Nat} (rx : config.rx.Rx fifo)
    (place : Nat) : config.tefSlot place ≠ config.rx.fifoAddress fifo := by
  -- The slots of the TEF and the objects of the FIFOs are apart.
  have within := config.tefSlot_within place
  have positive : 0 < sizeofTef := by decide
  have header : 0 < sizeofRx := by decide
  have apart := config.apart fifo rx
  omega

/-- The SEQ field at a slot depends on the bytes of the slot only. -/
theorem seqAt_congr {first second : Nat → UInt8} {address : Nat}
    (same : ∀ k < sizeofTef, first (fifoData (address + k)) = second (fifoData (address + k))) :
    seqAt first address = seqAt second address := by
  -- The field is in the flags, which are the second word of the entry.
  have flags : ∀ k < 4,
      first (fifoData (address + 4 + k)) = second (fifoData (address + 4 + k)) := by
    intro k inside
    rw [Nat.add_assoc]
    exact same (4 + k) (by unfold sizeofTef; omega)
  have lowest := flags 0 (by decide)
  rw [Nat.add_zero] at lowest
  simp only [seqAt, ObjTs.seq, objTsFromLe, le32ToCpu, lowest, flags 1, flags 2, flags 3,
    Nat.reduceLT]

/-- An occupied FIFO is a receive FIFO. -/
theorem FaultInv.rx (inv : FaultInv config state) {fifo : Nat}
    (set : state.occupied.getLsbD fifo = true) : config.rx.Rx fifo :=
  RxConfig.rx_of_mask inv.occupied set

/-- A step that touches neither the TEF nor what is queued keeps the invariant. -/
theorem FaultInv.other (inv : FaultInv config state) {tx : TxState echo}
    (kept : TxInv config.layout tx) (same : tx.chipTef = state.tx.chipTef)
    (index : tx.chipTefIndex = state.tx.chipTefIndex) :
    FaultInv config { state with tx := tx } := by
  -- Only the two facts about the TEF mention what the step may change.
  refine ⟨kept, ?_, inv.occupied, inv.status, inv.pending, inv.sound, inv.received, ?_, inv.queued⟩
  · show ringContents _ _ tx.chipTefIndex tx.chipTef.length = tx.chipTef
    rw [same, index]
    exact inv.entries
  · show ∀ place < tx.chipTef.length,
      state.ledger.Untaken (config.tefSlot (tx.chipTefIndex + place))
    rw [same, index]
    exact inv.sent

/-- A received frame is an object that was not queued yet. -/
theorem FaultInv.receive (inv : FaultInv config state) {fifo : Nat} {object : List UInt8}
    (named : config.rx.split.rxFifoMask.getLsbD fifo = true)
    (length : object.length = sizeofRx + config.rx.split.payloadSize) :
    FaultInv config
      { state with
        ram := patch (fifoData (config.rx.fifoAddress fifo)) object state.ram
        occupied := state.occupied ||| bit fifo
        filled := Function.update state.filled (config.rx.fifoAddress fifo)
          (state.filled (config.rx.fifoAddress fifo) + 1) } := by
  have rx : config.rx.Rx fifo := (config.rx.split.getLsbD_rxFifoMask fifo).mp named
  have inside := BitVec.lt_of_getLsbD named
  -- The new FIFO is the only one that was not occupied before.
  have bits : ∀ other, (state.occupied ||| bit fifo).getLsbD other = true →
      state.occupied.getLsbD other = true ∨ other = fifo := by
    intro other set
    rw [getLsbD_set _ inside, Bool.or_eq_true, decide_eq_true_eq] at set
    exact set
  refine ⟨inv.tx, ?_, ?_, inv.status, ?_, inv.sound.fill _, ?_, ?_, inv.queued⟩
  · -- The object lies apart from the TEF, so the entries are as they were.
    refine Eq.trans (ringContents_ext (fun counter => ?_) _ _) inv.entries
    apply seqAt_congr
    intro k small
    have within := config.tefSlot_within counter
    have apart := config.apart fifo rx
    unfold FaultConfig.tefSlot at within
    apply patch_outside
    rw [length]
    unfold fifoData
    omega
  · rw [subset_iff]
    intro other set
    rcases bits other set with old | same
    · exact subset_iff.mp inv.occupied other old
    · exact same ▸ named
  · -- The status that was read is of FIFOs that are occupied still.
    intro waits
    rw [subset_iff]
    intro other set
    have old := subset_iff.mp (inv.pending waits) other set
    rw [getLsbD_set _ inside, old, Bool.true_or]
  · intro other set
    -- The new object was never queued; the objects of other FIFOs are as they were.
    by_cases same : other = fifo
    · exact same ▸ inv.sound.untaken_fill _
    · have old := (bits other set).resolve_right same
      exact (inv.received other old).fill (RxConfig.fifoAddress_ne (inv.rx old) rx same)
  · intro place small
    -- No entry of the TEF is at the address that was filled.
    exact (inv.sent place small).fill (config.tefSlot_ne rx _)

/-- A sent frame appends its FIFO to the TEF, as far as there is room. -/
theorem txStep_chipSent {layout : TxLayout} {txFifoMask : BitVec 32} {tx after : TxState echo}
    {fifo : Nat} (stepped : txStep layout txFifoMask tx (.chipSent fifo) = some after) :
    tx.chipTxreq.getLsbD fifo = true ∧
      after.chipTef =
        (if tx.chipTef.length < layout.tefFifos then tx.chipTef ++ [fifo] else tx.chipTef) ∧
      after.chipTefIndex = tx.chipTefIndex := by
  -- The step is the one move of its name.
  cases txMove_of_txStep stepped with
  | chipSent requested => exact ⟨requested, rfl, rfl⟩

/-- A sent frame is an entry of the TEF that was not queued yet. -/
theorem FaultInv.chipSent (inv : FaultInv config state) {fifo : Nat} {entry : List UInt8}
    {tx : TxState echo} (length : entry.length = sizeofTef)
    (seq : seqAt (patch (fifoData (config.nextSlot state)) entry state.ram)
      (config.nextSlot state) = fifo)
    (stepped : txStep config.layout config.rx.split.txFifoMask state.tx (.chipSent fifo) =
      some tx) :
    state.tx.chipTef.length < config.rx.split.tefFifos ∧
      FaultInv config
        { state with
          tx := tx
          ram := patch (fifoData (config.nextSlot state)) entry state.ram
          filled := Function.update state.filled (config.nextSlot state)
            (state.filled (config.nextSlot state) + 1) } := by
  obtain ⟨requested, appended, index⟩ := txStep_chipSent stepped
  -- There is a slot for each frame, so the controller never drops an entry.
  have room : state.tx.chipTef.length < config.rx.split.tefFifos := inv.tx.tef_room requested
  rw [if_pos (inv.tx.tef_room requested)] at appended
  have longer : tx.chipTef.length = state.tx.chipTef.length + 1 := by
    rw [appended, List.length_append]
    rfl
  refine ⟨room, txStep_inv _ inv.tx stepped, ?_, inv.occupied, inv.status, inv.pending,
    inv.sound.fill _, ?_, ?_, inv.queued⟩
  · show ringContents _ _ tx.chipTefIndex tx.chipTef.length = tx.chipTef
    rw [longer, index, appended]
    refine Eq.trans (ringContents_ext (fun counter => ?_) _ _)
      ((ringContents_put (fun slot => seqAt state.ram (config.tefua + slot * sizeofTef)) room
        fifo).trans (by rw [inv.entries]))
    by_cases here : counter % config.rx.split.tefFifos =
        (state.tx.chipTefIndex + state.tx.chipTef.length) % config.rx.split.tefFifos
    · -- The new entry has the FIFO of its frame.
      rw [here, Function.update_self]
      exact seq
    · -- The other slots keep their bytes.
      rw [Function.update_of_ne here]
      apply seqAt_congr
      intro k small
      apply patch_outside
      rw [length]
      unfold FaultConfig.nextSlot FaultConfig.tefSlot fifoData
      unfold sizeofTef at small ⊢
      omega
  · intro other set
    -- No receive FIFO is at the address that was filled.
    exact (inv.received other set).fill (config.tefSlot_ne (inv.rx set) _).symm
  · intro place small
    show Ledger.Untaken _ (config.tefSlot (tx.chipTefIndex + place))
    rw [index]
    by_cases last : place = state.tx.chipTef.length
    · exact last ▸ inv.sound.untaken_fill _
    · -- A slot that is in use is not the one that is filled.
      have before : place < state.tx.chipTef.length := by
        have small : place < tx.chipTef.length := small
        omega
      refine (inv.sent place before).fill ?_
      have apart := config.tefSlot_apart
        (show state.tx.chipTefIndex + place <
          state.tx.chipTefIndex + state.tx.chipTef.length by omega) (by omega)
      have positive : 0 < sizeofTef := by decide
      unfold FaultConfig.nextSlot
      omega

/-- Reading the receive FIFOs comes to an end, and what it has queued is what it has released. -/
theorem handleRxif_passed {outcome : ReadOutcome} {ram : Nat → UInt8} {rxif : BitVec 32}
    (contained : Subset rxif config.rx.split.rxFifoMask)
    (fits : if config.bulk then BulkPassFits config.useBulkReleaseFifos outcome rxif
      else SimplePassFits config.rx outcome ram rxif) (before : RxState) :
    ∃ after all, handleRxif config outcome ram rxif before = some after ∧
      Passed config.rx ram rxif before all after := by
  have enough : rxifRounds > 33 := by decide
  -- The two loops end in the same way, and without a FIFO in the mask there is nothing to read.
  by_cases empty : rxif = 0
  · refine ⟨before, [], ?_, Passed.nil config.rx ram rxif before⟩
    rw [handleRxif, if_pos empty]
  · by_cases bulk : config.bulk = true
    · rw [if_pos bulk] at fits
      obtain ⟨ret, after, all, ran, passed⟩ :=
        bulkReadFifos_passed contained config.useBulkReleaseFifos fits before
      refine ⟨after, all, ?_, passed⟩
      rw [handleRxif, if_neg empty, if_pos bulk, ran rxifRounds enough]
      rfl
    · rw [if_neg bulk] at fits
      obtain ⟨ret, after, all, ran, passed⟩ := readFifos_passed contained fits before
      refine ⟨after, all, ?_, passed⟩
      rw [handleRxif, if_neg empty, if_neg bulk, ran rxifRounds enough]
      rfl

/-- Queueing more objects takes them from the account. -/
theorem FaultState.ledger_take (state : FaultState echo) (places : List Nat) :
    (⟨state.filled, state.handed ++ (state.objects ++ places.map state.ledger.item)⟩ :
      Ledger Nat) = state.ledger.take places := by
  -- What is queued is put behind what was queued.
  rw [← List.append_assoc]
  rfl

/-- The receive FIFOs that a pass has read were occupied, and their objects are queued now. -/
theorem FaultInv.afterRxif (inv : FaultInv config state) (waits : state.rxifPending = true)
    {after : RxState} {all : List Nat}
    (passed : Passed config.rx state.ram state.statusRxif state.rx all after) :
    FaultInv config (afterRxif config state after) := by
  -- What the pass has read is put into the account, and what it has released is taken off the
  -- occupied FIFOs.
  obtain ⟨nodup, named, processed, fifos, incremented, perm⟩ := passed
  have dropped : after.sfr.incremented.drop state.rx.sfr.incremented.length = fifos := by
    rw [incremented, List.drop_left]
  have objects : after.queued.rxb.drop state.rx.queued.rxb.length =
      all.map config.rx.fifoAddress := by
    rw [processed.rxb, List.drop_left]
  -- What was read is in the mask, and nothing of the mask was released since the status.
  have held : ∀ fifo ∈ all, state.occupied.getLsbD fifo = true :=
    fun fifo member => subset_iff.mp (inv.pending waits) fifo (named fifo member)
  -- No two FIFOs have one address, so an address is queued for its own FIFO only.
  have addressed : ∀ fifo, config.rx.Rx fifo → fifo ∉ all →
      config.rx.fifoAddress fifo ∉ all.map config.rx.fifoAddress := by
    intro fifo rx outside member
    obtain ⟨other, inside, same⟩ := List.mem_map.mp member
    have different : other ≠ fifo := fun equal => outside (equal ▸ inside)
    exact RxConfig.fifoAddress_ne (processed.rx other inside) rx different same
  have distinct : (all.map config.rx.fifoAddress).Nodup := by
    refine nodup.map_on fun first member second other same => ?_
    by_contra different
    exact RxConfig.fifoAddress_ne (processed.rx first member) (processed.rx second other) different
      same
  have taken : (Mcp25xxfd.afterRxif config state after).ledger =
      state.ledger.take (all.map config.rx.fifoAddress) := by
    rw [← objects, ← state.ledger_take]
    rfl
  -- The FIFOs that were released are those that were read.
  have left : ∀ fifo, (Mcp25xxfd.afterRxif config state after).occupied.getLsbD fifo = true →
      state.occupied.getLsbD fifo = true ∧ fifo ∉ all := by
    intro fifo set
    rw [Mcp25xxfd.afterRxif, getLsbD_foldl_clear, dropped, perm.mem_iff] at set
    exact set
  refine ⟨inv.tx, inv.entries, ?_, inv.status, fun no => Bool.noConfusion no, ?_, ?_, ?_, ?_⟩
  · rw [subset_iff]
    exact fun fifo set => subset_iff.mp inv.occupied fifo (left fifo set).1
  · rw [taken]
    refine inv.sound.take distinct fun place member => ?_
    obtain ⟨fifo, inside, rfl⟩ := List.mem_map.mp member
    exact inv.received fifo (held fifo inside)
  · intro fifo set
    have both := left fifo set
    rw [taken]
    exact (inv.received fifo both.1).take
      (addressed fifo (inv.rx both.1) both.2)
  · intro place small
    rw [taken]
    refine (inv.sent place small).take fun member => ?_
    obtain ⟨fifo, inside, same⟩ := List.mem_map.mp member
    exact config.tefSlot_ne (processed.rx fifo inside) _ same.symm
  · intro obj member
    show obj ∈ after.queued.rxb
    rw [processed.rxb]
    simp only [Mcp25xxfd.afterRxif, dropped] at member
    rcases List.mem_append.mp member with old | new
    · exact List.mem_append_left _ (inv.queued obj old)
    · obtain ⟨fifo, inside, rfl⟩ := List.mem_map.mp new
      exact List.mem_append_right _ (List.mem_map_of_mem (perm.mem_iff.mp inside))

/-- The driver reads where the oldest entry is, in the slot of the controller's index. -/
theorem FaultInv.tefAddress (inv : FaultInv config state) :
    state.tx.tefAddress = config.tefSlot state.tx.chipTefIndex := by
  -- The address of the driver is that of the index, which is below the number of entries.
  have inRing : state.tx.chipTefIndex < config.rx.split.tefFifos := inv.tx.tefIndex
  rw [inv.tx.address, TxState.chipTefUA, FaultConfig.tefSlot, Nat.mod_eq_of_lt inRing]
  rfl

/-- The bytes at the address that the driver reads have the FIFO of the oldest entry. -/
theorem FaultInv.seq_head (inv : FaultInv config state) {fifo : Nat} {rest : List Nat}
    (tef : state.tx.chipTef = fifo :: rest) :
    seqAt state.ram state.tx.tefAddress = fifo := by
  -- The entries are in the slots from the controller's index on.
  have entries := inv.entries
  rw [tef, List.length_cons, ringContents_succ] at entries
  rw [inv.tefAddress]
  exact (List.cons.inj entries).1

/-- A single entry whose transfers succeed is popped, and queued as it is to be. -/
theorem FaultInv.handleSingle (inv : FaultInv config state) {fifo : Nat} {rest : List Nat}
    (tef : state.tx.chipTef = fifo :: rest) (queued : Queued) :
    handleTefifHandleSingle config.layout true true state.ram state.tx queued =
      (handleTefifSingle config.layout 0 state.tx,
        { cmdReadn state.ram (fifoData state.tx.tefAddress) state.tx.tefAddress tefReadSize
            queued with
          header := Function.update queued.header state.tx.tefAddress
            (tefHeaderOf state.ram state.tx.tefAddress)
          rxb := queued.rxb ++ [state.tx.tefAddress] }) := by
  -- The SEQ field in the RAM and the one that the transmit path reads are the same.
  have read : readTef config.layout 0 state.tx = fifo := by
    rw [readTef, if_pos inv.tx.address, tef]
    rfl
  have transformed :=
    transformTef_eq state.ram state.tx.tefAddress queued
  simp only [handleTefifHandleSingle, handleTefifSingle, if_true, transformed, inv.seq_head tef,
    read]

/-- What the step leaves behind that pops an entry: its object is queued, released and counted. -/
theorem FaultInv.afterTefSingle_eq (inv : FaultInv config state) {fifo : Nat} {rest : List Nat}
    (tef : state.tx.chipTef = fifo :: rest) (position : Ist) :
    afterTefSingle config true true position state =
      { state with
        tx := { handleTefifSingle config.layout 0 state.tx with ist := position }
        rx :=
          { state.rx with
            queued :=
              { cmdReadn state.ram (fifoData state.tx.tefAddress) state.tx.tefAddress
                  tefReadSize state.rx.queued with
                header := Function.update state.rx.queued.header state.tx.tefAddress
                  (tefHeaderOf state.ram state.tx.tefAddress)
                rxb := state.rx.queued.rxb ++ [state.tx.tefAddress] } }
        objects := state.objects ++ [state.ledger.item state.tx.tefAddress]
        released := state.released ++ [state.tx.tefAddress] } := by
  have single := inv.handleSingle tef state.rx.queued
  -- The entry that the controller drops is the one at the address of the driver.
  simp only [afterTefSingle, single, tef, if_true, List.head?_cons, Option.toList_some,
    List.map_singleton, ← inv.tx.address]

/-- A single entry that is popped was not queued before, and the others are still there. -/
theorem FaultInv.afterTefSingle (inv : FaultInv config state) {fifo : Nat} {rest : List Nat}
    (quiet : state.tx.spiCompleting = none) (tef : state.tx.chipTef = fifo :: rest)
    {position : Ist}
    (ist : IstInv { handleTefifSingle config.layout 0 state.tx with ist := position }) :
    FaultInv config (afterTefSingle config true true position state) := by
  -- The entry moves from the TEF to the queue, and the ring goes on by one.
  have popped := handleTefifSingle_eq inv.tx.address 0 tef
  have kept := handleTefifSingle_inv inv.tx 0 position quiet tef ist
  have rests : (handleTefifSingle config.layout 0 state.tx).chipTef = rest := by rw [popped]
  have index : (handleTefifSingle config.layout 0 state.tx).chipTefIndex =
      (state.tx.chipTefIndex + 1) % config.rx.split.tefFifos := by
    rw [popped]
    rfl
  have longest : state.tx.chipTef.length ≤ config.rx.split.tefFifos := inv.tx.length_le
  rw [tef, List.length_cons] at longest
  have shape := inv.afterTefSingle_eq tef position
  have taken : (Mcp25xxfd.afterTefSingle config true true position state).ledger =
      state.ledger.take [state.tx.tefAddress] := by
    rw [shape, ← state.ledger_take]
    rfl
  rw [shape] at taken ⊢
  refine ⟨kept, ?_, inv.occupied, inv.status, inv.pending, ?_, ?_, ?_, ?_⟩
  · -- The entries behind the oldest one are as they were.
    have entries := inv.entries
    rw [tef, List.length_cons, ringContents_succ] at entries
    show ringContents _ _ (handleTefifSingle config.layout 0 state.tx).chipTefIndex
      (handleTefifSingle config.layout 0 state.tx).chipTef.length = _
    rw [index, rests, ringContents_congr (Nat.mod_mod _ _)]
    exact (List.cons.inj entries).2
  · rw [taken]
    -- The oldest entry was not queued before.
    refine inv.sound.take (List.nodup_singleton _) fun place member => ?_
    rw [List.mem_singleton.mp member, inv.tefAddress]
    exact inv.sent 0 (by rw [tef]; exact Nat.succ_pos _)
  · intro other set
    rw [taken]
    -- The objects of receive FIFOs are elsewhere.
    refine (inv.received other set).take fun member => ?_
    rw [List.mem_singleton, inv.tefAddress] at member
    exact config.tefSlot_ne (inv.rx set) _ member.symm
  · intro place small
    rw [taken]
    have small : place < (handleTefifSingle config.layout 0 state.tx).chipTef.length := small
    rw [rests] at small
    show Ledger.Untaken _ (config.tefSlot
      ((handleTefifSingle config.layout 0 state.tx).chipTefIndex + place))
    -- The entry was one place further from the oldest one before.
    have slot : config.tefSlot ((handleTefifSingle config.layout 0 state.tx).chipTefIndex +
        place) = config.tefSlot (state.tx.chipTefIndex + (place + 1)) := by
      rw [index, FaultConfig.tefSlot, FaultConfig.tefSlot, Nat.mod_add_mod, Nat.add_assoc,
        Nat.add_comm 1 place]
    rw [slot]
    refine (inv.sent (place + 1) (by rw [tef, List.length_cons]; omega)).take fun member => ?_
    rw [List.mem_singleton, inv.tefAddress] at member
    have apart := config.tefSlot_apart
      (show state.tx.chipTefIndex < state.tx.chipTefIndex + (place + 1) by omega)
      (by omega)
    have positive : 0 < sizeofTef := by decide
    omega
  · intro obj member
    rcases List.mem_append.mp member with old | new
    · exact List.mem_append_left _ (inv.queued obj old)
    · exact List.mem_append_right _ new

/-- Marking a FIFO as submitted does not touch the TEF. -/
theorem submitFifo_keeps (layout : TxLayout) (fifo : Nat) (tx : TxState echo) :
    (submitFifo layout fifo tx).chipTef = tx.chipTef ∧
      (submitFifo layout fifo tx).chipTefIndex = tx.chipTefIndex := by
  -- The last FIFO stops the queue as well, which is no matter of the TEF.
  unfold submitFifo
  by_cases last : isLastTxfifo layout fifo = true
  · rw [if_pos last]
    exact ⟨rfl, rfl⟩
  · rw [if_neg last]
    exact ⟨rfl, rfl⟩

/-- A step that neither appends to the TEF nor pops from it leaves it as it is. -/
theorem txStep_keeps {layout : TxLayout} {txFifoMask : BitVec 32} {tx after : TxState echo}
    {label : TxLabel} (stepped : txStep layout txFifoMask tx label = some after)
    (appends : appendsTef label = none) (pops : popsTef layout tx label = none) :
    after.chipTef = tx.chipTef ∧ after.chipTefIndex = tx.chipTefIndex := by
  cases txMove_of_txStep stepped with
  -- Marking a FIFO leaves the TEF alone, and the next three steps are ruled out.
  | startXmit idle awake allocated => exact submitFifo_keeps layout _ tx
  | chipSent requested => cases appends
  | istTefCount at_ quiet =>
    simp only [popsTef, at_] at pops
    cases pops
  | istTefSingle at_ quiet => cases pops
  | _ => exact ⟨rfl, rfl⟩

/-- Where the queue is cleared, the account has no more than before. -/
theorem FaultInv.clear (inv : FaultInv config state) {handed : List (Nat × Nat)}
    {statusRxif : BitVec 32} {rxifPending : Bool}
    (fewer : handed.Sublist (state.handed ++ state.objects))
    (status : Subset statusRxif config.rx.split.rxFifoMask)
    (pending : rxifPending = true → Subset statusRxif state.occupied) :
    FaultInv config
      { state with
        rx := { state.rx with queued := clearQueuedFifos state.rx.queued }
        statusRxif := statusRxif
        rxifPending := rxifPending
        handed := handed
        objects := []
        released := [] } := by
  -- What was handed on is part of what was handed on or queued before.
  have part : (handed ++ []).Sublist state.ledger.taken := by
    rw [List.append_nil]
    exact fewer
  exact
    { tx := inv.tx
      entries := inv.entries
      occupied := inv.occupied
      status := status
      pending := pending
      sound := inv.sound.sublist part
      received := fun fifo set => (inv.received fifo set).sublist part
      sent := fun place small => (inv.sent place small).sublist part
      queued := fun _ member => absurd member List.not_mem_nil }

/-- A mask is a part of itself. -/
theorem subset_refl (mask : BitVec 32) : Subset mask mask := subset_iff.mpr fun _ set => set

/-- The other steps keep the invariant, also those that clear the queue. -/
theorem FaultInv.afterOther (inv : FaultInv config state) {label : TxLabel} {tx : TxState echo}
    (may : mayTake config state label)
    (stepped : txStep config.layout config.rx.split.txFifoMask state.tx label = some tx) :
    FaultInv config (afterOther state label tx) := by
  -- The TEF stays as it was, so only the queue has to be looked at.
  obtain ⟨same, index⟩ := txStep_keeps stepped may.1 may.2.1
  have kept := inv.other (txStep_inv _ inv.tx stepped) same index
  cases label with
  | istStatus other =>
    simp only [Mcp25xxfd.afterOther]
    split
    · -- The pass ends here, with a status that is not used.
      exact { kept with
        status := inv.occupied
        pending := fun _ => subset_refl _ }
    · exact kept.clear (List.sublist_append_left _ _) inv.occupied fun _ => subset_refl _
  | istProcessed =>
    -- The objects of the queue are those that are handed on.
    exact kept.clear (List.Sublist.refl _) inv.status inv.pending
  | _ => exact kept

/-- Whether a step may put objects into the queue. -/
def FaultLabel.queues : FaultLabel → Bool
  | .istRxif _ | .istTefSingle _ _ => true
  | _ => false

/-- The other steps leave the queue as it is, or clear it. -/
theorem rxb_of_faultStep {label : FaultLabel} (other : label.queues = false)
    (stepped : faultStep config state label = some next) :
    next.rx.queued.rxb = state.rx.queued.rxb ∨ next.rx.queued.rxb = [] := by
  -- The cases are the steps that queue nothing.
  cases label with
  | receive fifo object =>
    simp only [faultStep] at stepped
    split at stepped
    · cases stepped
      exact Or.inl rfl
    · cases stepped
  | chipSent fifo entry =>
    simp only [faultStep] at stepped
    split at stepped
    · -- A full TEF makes no difference to the queue.
      obtain ⟨tx, -, rfl⟩ := Option.map_eq_some_iff.mp stepped
      split <;> exact Or.inl rfl
    · cases stepped
  | istRxif outcome => cases other
  | istTefSingle read uinc => cases other
  | tx label =>
    simp only [faultStep] at stepped
    split at stepped
    · obtain ⟨tx, -, rfl⟩ := Option.map_eq_some_iff.mp stepped
      -- Only a pass that begins or ends clears the queue.
      unfold afterOther
      split
      · split
        · exact Or.inl rfl
        · exact Or.inr rfl
      · exact Or.inr rfl
      · exact Or.inl rfl
    · cases stepped

/-- A step that may not queue anything queues nothing that is incomplete. -/
theorem complete_of_faultStep {label : FaultLabel} (other : label.queues = false) :
    ∀ memory after, faultStep config (state.withMemory memory) label = some after →
      ∀ obj ∈ after.rx.queued.rxb.drop state.rx.queued.rxb.length,
        Complete config state after.rx.queued obj := by
  intro memory after stepped obj member
  -- Nothing is left of the queue behind its old length.
  rcases rxb_of_faultStep other stepped with same | empty
  · rw [same] at member
    have none : obj ∈ state.rx.queued.rxb.drop state.rx.queued.rxb.length := member
    rw [List.drop_length] at none
    cases none
  · rw [empty, List.drop_nil] at member
    cases member

/-- What the invariant says of a state is what is to hold of it after a step. -/
theorem FaultInv.passSound (inv : FaultInv config next) {label : FaultLabel}
    (complete : ∀ memory after, faultStep config (state.withMemory memory) label = some after →
      ∀ obj ∈ after.rx.queued.rxb.drop state.rx.queued.rxb.length,
        Complete config state after.rx.queued obj) : PassSound config state label next where
  once := inv.sound.nodup.sublist (List.sublist_append_left _ _)
  queued := inv.queued
  complete := complete
  ends outcome fits := by
    -- The account has no object twice, and the status is served without an end that is missing.
    obtain ⟨after, all, ran, -⟩ := handleRxif_passed inv.status fits next.rx
    rw [ran]
    exact Option.some_ne_none after

/-- The objects of the receive FIFOs are queued with all their bytes. -/
theorem Passed.complete {rx after : RxState} {all : List Nat}
    (passed : Passed config.rx state.ram state.statusRxif rx all after)
    (pending : Subset state.statusRxif state.occupied) :
    ∀ obj ∈ after.queued.rxb.drop rx.queued.rxb.length, Complete config state after.queued obj := by
  -- The new objects are those of the FIFOs in the status, each of which was fetched.
  intro obj member
  have processed := passed.fetched.processed
  rw [processed.rxb, List.drop_left] at member
  obtain ⟨fifo, inside, rfl⟩ := List.mem_map.mp member
  have named := passed.named fifo inside
  exact Or.inl ⟨fifo, subset_iff.mp pending fifo named, rfl, processed.header fifo inside,
    window_loaded (processed.data fifo inside)⟩

/-- An entry whose transfers succeed is queued with the header that is in the RAM. -/
theorem FaultInv.completeTef (inv : FaultInv config state) {fifo : Nat} {rest : List Nat}
    (tef : state.tx.chipTef = fifo :: rest) (memory : Nat → UInt8) (position : Ist) :
    let after := Mcp25xxfd.afterTefSingle config true true position (state.withMemory memory)
    ∀ obj ∈ after.rx.queued.rxb.drop state.rx.queued.rxb.length,
      Complete config state after.rx.queued obj := by
  intro after obj member
  -- The memory is only where the bytes are read into, so the entry is the same as without it.
  have single := inv.handleSingle tef (state.withMemory memory).rx.queued
  have queued : after.rx.queued = (handleTefifHandleSingle config.layout true true state.ram
      state.tx (state.withMemory memory).rx.queued).2 := rfl
  rw [single] at queued
  rw [queued] at member ⊢
  have here : obj ∈ (state.rx.queued.rxb ++ [state.tx.tefAddress]).drop
      state.rx.queued.rxb.length := member
  rw [List.drop_left, List.mem_singleton] at here
  refine Or.inr ⟨by rw [tef]; exact List.cons_ne_nil _ _, here ▸ inv.tx.address.symm, ?_⟩
  rw [here]
  exact Function.update_self _ _ _

/-- The step that handles a single entry finds one, wherever the pass takes it. -/
theorem FaultInv.istTefSingle (inv : FaultInv config state) {read uinc : Bool}
    (fits : read = true ∧ uinc = true)
    (stepped : faultStep config state (.istTefSingle read uinc) = some next) :
    FaultInv config next ∧ ∀ memory after,
      faultStep config (state.withMemory memory) (.istTefSingle read uinc) = some after →
      ∀ obj ∈ after.rx.queued.rxb.drop state.rx.queued.rxb.length,
        Complete config state after.rx.queued obj := by
  -- The entry is the oldest one, and its object joins the account.
  obtain ⟨rfl, rfl⟩ := fits
  simp only [faultStep] at stepped
  split at stepped
  · rename_i quiet
    have known := inv.tx.ist
    split at stepped
    · -- The count is no larger than the TEF is long.
      rename_i left at_
      cases stepped
      simp only [IstInv, at_] at known
      cases tef : state.tx.chipTef with
      | nil => simp [tef] at known
      | cons fifo rest =>
        rw [tef, List.length_cons] at known
        have holds : IstInv { handleTefifSingle config.layout 0 state.tx with
            ist := .tefCount left } := by
          rw [handleTefifSingle_eq inv.tx.address 0 tef]
          simp only [IstInv]
          omega
        refine ⟨inv.afterTefSingle quiet tef holds, fun memory after moved => ?_⟩
        simp only [faultStep, FaultState.withMemory, quiet, at_, if_true,
          Option.some.injEq] at moved
        subst moved
        exact inv.completeTef tef memory (.tefCount left)
    · -- The TEF was just seen not to be empty.
      rename_i at_
      cases stepped
      simp only [IstInv, at_] at known
      cases tef : state.tx.chipTef with
      | nil => simp [tef] at known
      | cons fifo rest =>
        refine ⟨inv.afterTefSingle quiet tef trivial, fun memory after moved => ?_⟩
        simp only [faultStep, FaultState.withMemory, quiet, at_, if_true,
          Option.some.injEq] at moved
        subst moved
        exact inv.completeTef tef memory .tefConservative
    · cases stepped
  · cases stepped

/-- The step that reads the receive FIFOs comes to an end, with any memory. -/
theorem FaultInv.istRxif (inv : FaultInv config state) {outcome : ReadOutcome}
    (fits : PassFits config state (.istRxif outcome))
    (stepped : faultStep config state (.istRxif outcome) = some next) :
    FaultInv config next ∧ ∀ memory after,
      faultStep config (state.withMemory memory) (.istRxif outcome) = some after →
      ∀ obj ∈ after.rx.queued.rxb.drop state.rx.queued.rxb.length,
        Complete config state after.rx.queued obj := by
  -- A pass that fits ends whatever its registers and its memory are.
  have passes : ∀ rx, ∃ after all,
      handleRxif config outcome state.ram state.statusRxif rx = some after ∧
        Passed config.rx state.ram state.statusRxif rx all after :=
    handleRxif_passed inv.status fits
  simp only [faultStep] at stepped
  split at stepped
  · rename_i ready
    obtain ⟨rx, ran, rfl⟩ := Option.map_eq_some_iff.mp stepped
    obtain ⟨after, all, same, passed⟩ := passes state.rx
    rw [ran, Option.some.injEq] at same
    subst same
    refine ⟨inv.afterRxif ready.2.1 passed, fun memory other moved => ?_⟩
    -- With another memory the FIFOs are read as well, if not into the same bytes.
    simp only [faultStep] at moved
    split at moved
    · obtain ⟨rx, ran, rfl⟩ := Option.map_eq_some_iff.mp moved
      obtain ⟨after, all, same, passed⟩ := passes (state.withMemory memory).rx
      have ran : handleRxif config outcome state.ram state.statusRxif
          (state.withMemory memory).rx = some rx := ran
      rw [ran, Option.some.injEq] at same
      subst same
      exact passed.complete (inv.pending ready.2.1)
    · cases moved
  · cases stepped

/-- A step whose failures do no harm keeps the invariant, and does what it is to do. -/
theorem faultStep_sound (inv : FaultInv config state) {label : FaultLabel}
    (fits : PassFits config state label) (stepped : faultStep config state label = some next) :
    FaultInv config next ∧ PassSound config state label next := by
  -- The cases are the steps of the machine.
  cases label with
  | receive fifo object =>
    simp only [faultStep] at stepped
    split at stepped
    · rename_i ready
      cases stepped
      have kept := inv.receive ready.1 ready.2.2
      exact ⟨kept, kept.passSound (complete_of_faultStep rfl)⟩
    · cases stepped
  | chipSent fifo entry =>
    simp only [faultStep] at stepped
    split at stepped
    · rename_i ready
      obtain ⟨tx, moved, rfl⟩ := Option.map_eq_some_iff.mp stepped
      -- The TEF has room for each frame that is still to be sent.
      obtain ⟨room, kept⟩ := inv.chipSent ready.1 ready.2 moved
      rw [if_pos room]
      exact ⟨kept, kept.passSound (complete_of_faultStep rfl)⟩
    · cases stepped
  | istRxif outcome =>
    obtain ⟨kept, complete⟩ := inv.istRxif fits stepped
    exact ⟨kept, kept.passSound complete⟩
  | istTefSingle read uinc =>
    obtain ⟨kept, complete⟩ := inv.istTefSingle fits stepped
    exact ⟨kept, kept.passSound complete⟩
  | tx label =>
    simp only [faultStep] at stepped
    split at stepped
    · rename_i may
      obtain ⟨tx, moved, rfl⟩ := Option.map_eq_some_iff.mp stepped
      have kept := inv.afterOther may moved
      exact ⟨kept, kept.passSound (complete_of_faultStep rfl)⟩
    · cases stepped

/--
In every run whose failures do no harm each object is handed on at most once.

Nothing is released that is not queued, and whatever is queued has been read as a whole.
-/
theorem passes_sound (config : FaultConfig) (echo : EchoTable Nat) (ram : Nat → UInt8)
    (rx : RxState) (labels : List FaultLabel)
    (fits : (faultMachine config echo ram rx).Along
      (fun state label _ => PassFits config state label) (FaultState.opened config ram rx) labels) :
    (faultMachine config echo ram rx).Along (PassSound config) (FaultState.opened config ram rx)
      labels := by
  -- The invariant is carried from step to step.
  have keeps : ∀ state label next, FaultInv config state → PassFits config state label →
      (faultMachine config echo ram rx).step state label = some next →
      FaultInv config next ∧ PassSound config state label next :=
    fun _ _ _ inv fits stepped => faultStep_sound inv fits stepped
  exact Machine.along_of_condition keeps labels _ (faultInv_opened config ram rx) fits

/-- The receive FIFOs for classic frames lie behind a TEF of 32 entries. -/
theorem classicFaults_apart (fifo : Nat) (_ : classicConfig.Rx fifo) :
    classicConfig.fifoAddress fifo + (sizeofRx + classicConfig.split.payloadSize) ≤ 0 ∨
      0 + classicConfig.split.tefFifos * sizeofTef ≤ classicConfig.fifoAddress fifo := by
  -- The first receive FIFO lies behind the last entry.
  have entries : 0 + classicConfig.split.tefFifos * sizeofTef ≤ 0x180 := by decide
  exact Or.inr (Nat.le_trans entries (Nat.le_add_right _ _))

/-- The FIFOs for classic frames, released one by one. -/
def classicFaults : FaultConfig where
  rx := classicConfig
  tefua := 0
  apart := classicFaults_apart
  useCompleteFdfifoRead := false
  useBulkReleaseFifos := false

/-- The memory of the driver and the registers, as the setup leaves them. -/
def classicRx : RxState where
  queued := { fifoData := fun _ => 0, header := fun _ => ⟨0, 0, 0⟩, rxb := [] }
  sfr := classicSetup
  fifoUsage := fun _ => 0

/-- A pass up to the TEF, with seven transmit FIFOs of which none is aborted. -/
def passUpToTef (other : Bool) (outcome : ReadOutcome) : List FaultLabel :=
  [.tx .istSnapshot, .tx (.istStatus other), .istRxif outcome] ++
    List.replicate 8 (.tx .istTxatif) ++ [.tx .istTefif]

/-- A received frame whose header cannot be read in the first pass, and is in the second one. -/
def receivedLate : List FaultLabel :=
  [.receive 1 (List.replicate 20 7)] ++
    passUpToTef true { ReadOutcome.good with read := fun _ => false } ++
    [.tx .istProcessed, .tx .istWake] ++ passUpToTef true .good ++ [.tx .istProcessed]

/-- The frame is handed on in the second pass, once. -/
theorem passes_sound_receivedLate :
    ((faultMachine classicFaults (.ofFunction Nat) (fun _ => 0) classicRx).exec
        (FaultState.opened classicFaults (fun _ => 0) classicRx) receivedLate).map
      (fun state => state.handed) = some [(0x180, 1)] ∧
    (faultMachine classicFaults (.ofFunction Nat) (fun _ => 0) classicRx).Along
      (PassSound classicFaults) (FaultState.opened classicFaults (fun _ => 0) classicRx)
      receivedLate := by
  -- The labels of the run are looked at one by one.
  refine ⟨by decide +kernel, passes_sound classicFaults _ _ _ receivedLate ?_⟩
  apply Machine.along_of_forall
  intro label member state next
  -- The releases of both reads succeed, so neither of them releases a range in part.
  have passes : ∀ read : Nat → Bool,
      ∀ label ∈ passUpToTef true { ReadOutcome.good with read := read },
        PassFits classicFaults state label := by
    intro read label member
    simp only [passUpToTef, List.mem_append, List.mem_cons, List.mem_replicate,
      List.not_mem_nil, or_false] at member
    rcases member with ((rfl | rfl | rfl) | ⟨-, rfl⟩) | rfl
    · trivial
    · trivial
    · intro single start stop _ _ _
      exact Or.inr fun _ _ _ => rfl
    · trivial
    · trivial
  simp only [receivedLate, List.mem_append, List.mem_cons, List.not_mem_nil, or_false] at member
  rcases member with (((rfl | first) | rfl | rfl) | second) | rfl
  · trivial
  · exact passes _ label first
  · trivial
  · trivial
  · exact passes _ label second
  · trivial

/-- A sent frame whose entry is not popped in the first pass, since the write of UINC fails. -/
def sentTwice : List FaultLabel :=
  [.tx .startXmit, .tx .spiAsync, .tx .putEchoSkb, .tx .spiExecute, .tx .markTxPending,
    .chipSent 25 [0, 0, 0, 0, 0, 0x32, 0, 0, 0, 0, 0, 0]] ++
    passUpToTef false .good ++
    [.istTefSingle true false, .tx (.istTefCount 0), .tx (.istProcess 0), .tx .istProcessed,
      .tx .istWake] ++
    passUpToTef false .good ++
    [.tx .istTefCheck, .istTefSingle true true, .tx .istTefCheck, .tx (.istProcess 0)]

/-- One failing write is enough for an entry to be handed on twice, with all later passes good. -/
theorem sentTwice_unsound :
    ¬ (faultMachine classicFaults (.ofFunction Nat) (fun _ => 0) classicRx).Along
      (PassSound classicFaults) (FaultState.opened classicFaults (fun _ => 0) classicRx)
      (sentTwice ++ [.tx .istProcessed]) := by
  intro along
  -- The run is evaluated as far as the list of what was handed on.
  have handed : ((faultMachine classicFaults (.ofFunction Nat) (fun _ => 0) classicRx).exec
        (FaultState.opened classicFaults (fun _ => 0) classicRx)
        (sentTwice ++ [.tx .istProcessed])).map (fun state => state.handed) =
      some [(0, 1), (0, 1)] := by decide +kernel
  obtain ⟨last, ran, twice⟩ := Option.map_eq_some_iff.mp handed
  obtain ⟨here, sound⟩ := along.last ran
  have once := sound.once
  rw [twice] at once
  exact absurd once (by decide)

end OpenwrtMisc.Mcp25xxfd
