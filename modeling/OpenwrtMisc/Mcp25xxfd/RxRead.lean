import Mathlib.Data.List.Nodup
import OpenwrtMisc.Mcp25xxfd.Object
import OpenwrtMisc.Mcp25xxfd.Release

/-! How the driver reads the receive FIFOs, one by one or each run of them in one transfer. -/

namespace OpenwrtMisc.Mcp25xxfd

open BitMask

/-- The address of a byte of the FIFO RAM on the bus. -/
def fifoData (address : Nat) : Nat := 0x400 + address

/-- The receive FIFOs as they are configured, with the addresses that the controller gave them. -/
structure RxConfig where
  split : FifoSplit
  table : DlcTable
  /-- `CAN_CTRLMODE_FD`, which goes with the larger payload. -/
  fd : Bool
  payload : split.payloadSize = if fd then 64 else 8
  fifoAddress : Nat → Nat
  /-- FIFO 0 is the TEF. -/
  behindTef : 0 < split.rxFifoStart
  contiguous : ∀ fifo, split.rxFifoStart ≤ fifo → fifo + 1 < split.rxFifoStart + split.rxFifos →
    fifoAddress (fifo + 1) = fifoAddress fifo + (sizeofRx + split.payloadSize)

/-- Which transfers of a pass succeed, by the FIFO that they are for. -/
structure ReadOutcome where
  /-- The read of an object, or of a range of objects from this FIFO on. -/
  read : Nat → Bool
  /-- The read of the data that the first read leaves out. -/
  extra : Nat → Bool
  /-- The release of a FIFO. -/
  release : Nat → Bool
  /-- The release of a range of FIFOs from this FIFO on. -/
  bulkRelease : Nat → Bool

/-- All transfers succeed. -/
def ReadOutcome.good : ReadOutcome where
  read := fun _ => true
  extra := fun _ => true
  release := fun _ => true
  bulkRelease := fun _ => true

/-- What reading the receive FIFOs works on. -/
structure RxState where
  queued : Queued
  sfr : Sfr
  fifoUsage : Nat → UInt64

/-- `mcp25xxfd_cmd_readn` into `fifo_data`, where it succeeds. -/
def cmdReadn (ram : Nat → UInt8) (reg address n : Nat) (queued : Queued) : Queued :=
  { queued with fifoData := patch address (window reg n ram) queued.fifoData }

/-- A word in the byte order of the controller. -/
def le32ToCpu (bytes : Nat → UInt8) (address : Nat) : BitVec 32 :=
  (bytes (address + 3)).toBitVec ++ (bytes (address + 2)).toBitVec ++
    (bytes (address + 1)).toBitVec ++ (bytes address).toBitVec

/-- `mcp25xxfd_obj_ts_from_le`. -/
def objTsFromLe (bytes : Nat → UInt8) (address : Nat) : ObjTs where
  id := le32ToCpu bytes address
  flags := le32ToCpu bytes (address + 4)
  ts := le32ToCpu bytes (address + 8)

/-- `mcp25xxfd_transform_rx`, with the length that it returns. -/
def transformRx (table : DlcTable) (rx : Nat) (queued : Queued) : Nat × Queued :=
  let header := Function.update queued.header rx (objTsFromLe queued.fifoData rx)
  let queued := addtoQueuedFifos rx { queued with header := header }
  (table.canDlc2len (queued.header rx).dlc, queued)

/-- An entry of the TEF is read without the last byte of its timestamp. -/
def tefReadSize : Nat := sizeofObjTs - 1

/-- The transformation and the queueing of an entry, with the FIFO that its frame was sent from. -/
def transformTef (tef : Nat) (queued : Queued) : Nat × Queued :=
  let header := objTsFromLe queued.fifoData tef
  let marked := { header with flags := header.flags ||| canObjFlagsCustomIstef }
  (header.seq, addtoQueuedFifos tef
    { queued with header := Function.update queued.header tef marked })

/-- The sizes of the first read of `mcp25xxfd_read_fifos`. -/
def fifoMinPayloadSize : Nat := 8
def fifoMinSize : Nat := sizeofRx + fifoMinPayloadSize

/-- The body of the loop of `mcp25xxfd_read_fifos`. -/
def readFifo (config : RxConfig) (outcome : ReadOutcome) (ram : Nat → UInt8) (i : Nat)
    (state : RxState) : Int × RxState :=
  let fifoAddress := config.fifoAddress i
  let fifoMaxPayloadSize := if config.fd then 64 else 8
  if outcome.read i then
    let read := cmdReadn ram (fifoData fifoAddress) fifoAddress fifoMinSize state.queued
    let (length, queued) := transformRx config.table fifoAddress read
    let len := min length fifoMaxPayloadSize
    let state := { state with queued := queued }
    -- The frame is queued already when the read of the rest of its data fails.
    if len > fifoMinPayloadSize ∧ outcome.extra i = false then (-eio, state)
    else
      let queued :=
        if len > fifoMinPayloadSize then
          cmdReadn ram (fifoData (fifoAddress + fifoMinSize)) (fifoAddress + fifoMinSize)
            (len - fifoMinPayloadSize) queued
        else queued
      let (ret, sfr) := normalReleaseFifos outcome.release i (i + 1) state.sfr
      let state := { state with queued := queued, sfr := sfr }
      if ret ≠ 0 then (ret, state)
      else
        (0, { state with
          fifoUsage := Function.update state.fifoUsage i (state.fifoUsage i + 1) })
  else (-eio, state)

/-- The value of an `int` that is compared with a `u32`. -/
def toUnsigned (i : Int) : Nat := (BitVec.ofInt 32 i).toNat

/-- `mask & BIT(i)`, where a shift by more than the width has no meaning. -/
def testBit (mask : BitVec 32) (i : Int) : Option Bool :=
  if 0 ≤ i ∧ i < 32 then some (mask.getLsbD i.toNat) else none

/-- The loop of `mcp25xxfd_read_fifos`, `none` where it does not come to an end. -/
def readFifosLoop (config : RxConfig) (outcome : ReadOutcome) (ram : Nat → UInt8)
    (mask : BitVec 32) : Nat → Int → RxState → Option (Int × RxState)
  | 0, _, _ => none
  | fuel + 1, i, state =>
    -- The counter is an `int`, but the comparison with a `u32` makes both sides unsigned.
    if toUnsigned i ≥ config.split.rxFifoStart then
      (testBit mask i).bind fun set =>
        if set then
          let (ret, state) := readFifo config outcome ram i.toNat state
          if ret ≠ 0 then some (ret, state)
          else readFifosLoop config outcome ram mask fuel (i - 1) state
        else readFifosLoop config outcome ram mask fuel (i - 1) state
    else some (0, state)

/-- `mcp25xxfd_read_fifos`. -/
def readFifos (config : RxConfig) (outcome : ReadOutcome) (ram : Nat → UInt8) (rxif : BitVec 32)
    (fuel : Nat) (state : RxState) : Option (Int × RxState) :=
  readFifosLoop config outcome ram rxif fuel
    (config.split.rxFifoStart + config.split.rxFifos - 1) state

/-- The loop of `mcp25xxfd_bulk_read_fifo_range` over the objects that were read. -/
def preprocess (config : RxConfig) : Nat → Nat → RxState → RxState
  | 0, _, state => state
  | count + 1, i, state =>
    -- The length of the frame is not used here, since the whole payload was read before.
    let (_, queued) := transformRx config.table (config.fifoAddress i) state.queued
    preprocess config count (i + 1)
      { state with
        queued := queued
        fifoUsage := Function.update state.fifoUsage i (state.fifoUsage i + 1) }

/-- `mcp25xxfd_bulk_read_fifo_range`, with the module parameter `use_bulk_release_fifos`. -/
def bulkReadFifoRange (config : RxConfig) (useBulkReleaseFifos : Bool) (outcome : ReadOutcome)
    (ram : Nat → UInt8) (start stop : Nat) (state : RxState) : Int × RxState :=
  let fifoMaxSize := sizeofRx + config.split.payloadSize
  if outcome.read start then
    let queued := cmdReadn ram (fifoData (config.fifoAddress start)) (config.fifoAddress start)
      ((stop - start) * fifoMaxSize) state.queued
    let (ret, sfr) :=
      if useBulkReleaseFifos then
        bulkReleaseFifos (outcome.bulkRelease start) config.split start stop state.sfr
      else normalReleaseFifos outcome.release start stop state.sfr
    let state := { state with queued := queued, sfr := sfr }
    if ret ≠ 0 then (ret, state) else (0, preprocess config (stop - start) start state)
  else (-eio, state)

/-- The inner loop of `mcp25xxfd_bulk_read_fifos`, with `i`, `start` and the rest of the mask. -/
def takeRange : Nat → Int → Int → BitVec 32 → Option (Int × Int × BitVec 32)
  | 0, _, _, _ => none
  | fuel + 1, i, start, mask =>
    (testBit mask i).bind fun set =>
      -- The round clears the bit that it saw, so the outer loop does not come back to it.
      if set then takeRange fuel (i - 1) i (mask &&& ~~~(bit i.toNat)) else some (i, start, mask)

/-- The outer loop of `mcp25xxfd_bulk_read_fifos`, `none` where a loop does not come to an end. -/
def bulkReadFifosLoop (config : RxConfig) (useBulkReleaseFifos : Bool) (outcome : ReadOutcome)
    (ram : Nat → UInt8) : Nat → Int → BitVec 32 → RxState → Option (Int × RxState)
  | 0, _, _, _ => none
  | fuel + 1, i, mask, state =>
    if mask ≠ 0 ∧ toUnsigned i ≥ config.split.rxFifoStart then
      (testBit mask i).bind fun set =>
        if set then
          (takeRange fuel i i mask).bind fun (next, start, rest) =>
            -- The range ends where the inner loop started, and starts at the last bit it saw.
            let (ret, state) := bulkReadFifoRange config useBulkReleaseFifos outcome ram
              start.toNat (i.toNat + 1) state
            if ret ≠ 0 then some (ret, state)
            else
              bulkReadFifosLoop config useBulkReleaseFifos outcome ram fuel (next - 1) rest state
        else bulkReadFifosLoop config useBulkReleaseFifos outcome ram fuel (i - 1) mask state
    else some (0, state)

/-- `mcp25xxfd_bulk_read_fifos`. -/
def bulkReadFifos (config : RxConfig) (useBulkReleaseFifos : Bool) (outcome : ReadOutcome)
    (ram : Nat → UInt8) (rxif : BitVec 32) (fuel : Nat) (state : RxState) :
    Option (Int × RxState) :=
  bulkReadFifosLoop config useBulkReleaseFifos outcome ram fuel
    (config.split.rxFifoStart + config.split.rxFifos - 1) rxif state

/-- The header of the object in the RAM, as the driver is to queue it. -/
def headerOf (ram : Nat → UInt8) (address : Nat) : ObjTs :=
  let header := objTsFromLe (fun other => ram (fifoData other)) address
  { header with ts := header.ts <<< 8 }

/-- The bytes of data of a received frame: what its DLC says, up to the size of the payload. -/
def RxConfig.length (config : RxConfig) (ram : Nat → UInt8) (fifo : Nat) : Nat :=
  min (config.table.canDlc2len (headerOf ram (config.fifoAddress fifo)).dlc)
    config.split.payloadSize

/-- The bytes from an address on are those in the RAM. -/
def Loaded (ram : Nat → UInt8) (address n : Nat) (data : Nat → UInt8) : Prop :=
  ∀ other, address ≤ other → other < address + n → data other = ram (fifoData other)

/-- What was read is loaded. -/
theorem loaded_patch (ram : Nat → UInt8) (address n : Nat) (data : Nat → UInt8) :
    Loaded ram address n (patch address (window (fifoData address) n ram) data) := by
  intro other above below
  -- Every byte comes from the place in the window that its address says.
  have index : other = address + (other - address) := by omega
  have place : fifoData address + (other - address) = fifoData other := by
    unfold fifoData
    omega
  have inside : other - address < (window (fifoData address) n ram).length := by
    rw [length_window]
    omega
  have byte := getElem?_window (fifoData address) n ram (other - address)
  rw [if_pos (by omega), place, List.getElem?_eq_getElem inside] at byte
  rw [index, patch_inside inside, ← index]
  exact Option.some.inj byte

/-- A header that is loaded is decoded as the RAM has it. -/
theorem objTsFromLe_loaded {ram : Nat → UInt8} {address : Nat} {data : Nat → UInt8}
    (loaded : Loaded ram address sizeofObjTs data) :
    objTsFromLe data address = objTsFromLe (fun other => ram (fifoData other)) address := by
  -- A header takes twelve bytes, and each of them is loaded.
  have same : ∀ k < 12, data (address + k) = ram (fifoData (address + k)) := by
    intro k inside
    exact loaded (address + k) (by omega) (Nat.add_lt_add_left inside address)
  have first := same 0 (by decide)
  rw [Nat.add_zero] at first
  simp only [objTsFromLe, le32ToCpu, Nat.add_assoc, Nat.reduceAdd, first, same 1, same 2, same 3,
    same 4, same 5, same 6, same 7, same 8, same 9, same 10, same 11, Nat.reduceLT]

/-- An object whose header is loaded is queued as it is to be. -/
theorem transformRx_eq {ram : Nat → UInt8} {rx : Nat} {queued : Queued} (table : DlcTable)
    (loaded : Loaded ram rx sizeofObjTs queued.fifoData) :
    transformRx table rx queued = (table.canDlc2len (headerOf ram rx).dlc,
      { queued with
        header := Function.update queued.header rx (headerOf ram rx)
        rxb := queued.rxb ++ [rx] }) := by
  -- The header does not depend on what the driver knew before, only on the bytes.
  have decoded := objTsFromLe_loaded loaded
  simp only [transformRx, addtoQueuedFifos, decoded, Function.update_self, Function.update_idem]
  rfl

/-- The FIFO is one of the receive FIFOs. -/
def RxConfig.Rx (config : RxConfig) (fifo : Nat) : Prop :=
  config.split.rxFifoStart ≤ fifo ∧ fifo < config.split.rxFifoStart + config.split.rxFifos

variable {config : RxConfig}

/-- The receive FIFOs lie one behind the other. -/
theorem RxConfig.fifoAddress_add {fifo distance : Nat} (first : config.Rx fifo)
    (last : config.Rx (fifo + distance)) :
    config.fifoAddress (fifo + distance) =
      config.fifoAddress fifo + distance * (sizeofRx + config.split.payloadSize) := by
  -- The induction is on the distance: one more FIFO lies one object behind.
  induction distance with
  | zero => simp
  | succ distance ih =>
    have below := last.2
    have before : config.Rx (fifo + distance) := ⟨by have above := first.1; omega, by omega⟩
    have next := config.contiguous (fifo + distance) before.1 (by omega)
    rw [Nat.add_succ, Nat.succ_eq_add_one, next, ih before, Nat.add_mul, Nat.one_mul,
      Nat.add_assoc]

/-- The objects of two receive FIFOs do not meet. -/
theorem RxConfig.fifoAddress_lt {first second : Nat} (low : config.Rx first)
    (high : config.Rx second) (less : first < second) :
    config.fifoAddress first + (sizeofRx + config.split.payloadSize) ≤
      config.fifoAddress second := by
  -- The distance is at least one object, which is all that is asked for.
  obtain ⟨distance, rfl⟩ := Nat.exists_eq_add_of_lt less
  rw [Nat.add_assoc] at high ⊢
  rw [RxConfig.fifoAddress_add low high, Nat.add_mul, Nat.one_mul]
  omega

/-- Two receive FIFOs have two addresses. -/
theorem RxConfig.fifoAddress_ne {first second : Nat} (one : config.Rx first)
    (other : config.Rx second) (different : first ≠ second) :
    config.fifoAddress first ≠ config.fifoAddress second := by
  -- Addresses of objects are apart by more than nothing, because an object has a header.
  have positive : 0 < sizeofRx := by decide
  rcases Nat.lt_or_gt_of_ne different with less | greater
  · have apart := RxConfig.fifoAddress_lt one other less
    omega
  · have apart := RxConfig.fifoAddress_lt other one greater
    omega

/-- The data of a frame fits into the payload of its FIFO. -/
theorem RxConfig.length_le (config : RxConfig) (ram : Nat → UInt8) (fifo : Nat) :
    config.length ram fifo ≤ config.split.payloadSize :=
  Nat.min_le_right _ _

/-- The objects of some receive FIFOs have been queued, in this order. -/
structure Processed (config : RxConfig) (ram : Nat → UInt8) (before : RxState) (done : List Nat)
    (state : RxState) : Prop where
  rx : ∀ fifo ∈ done, config.Rx fifo
  rxb : state.queued.rxb = before.queued.rxb ++ done.map config.fifoAddress
  header : ∀ fifo ∈ done,
    state.queued.header (config.fifoAddress fifo) = headerOf ram (config.fifoAddress fifo)
  data : ∀ fifo ∈ done, Loaded ram (config.fifoAddress fifo + sizeofObjTs)
    (config.length ram fifo) state.queued.fifoData
  usage : ∀ fifo, state.fifoUsage fifo = before.fifoUsage fifo + UInt64.ofNat (done.count fifo)

/-- Before the first object nothing has been queued. -/
theorem Processed.nil (config : RxConfig) (ram : Nat → UInt8) (before : RxState) :
    Processed config ram before [] before where
  rx := fun _ member => absurd member List.not_mem_nil
  rxb := (List.append_nil _).symm
  header := fun _ member => absurd member List.not_mem_nil
  data := fun _ member => absurd member List.not_mem_nil
  usage := fun _ => (UInt64.add_zero _).symm

variable {ram : Nat → UInt8} {before state after : RxState} {done : List Nat}

/-- One more object is queued, which leaves the other objects alone. -/
theorem Processed.object (processed : Processed config ram before done state) {fifo : Nat}
    (rx : config.Rx fifo) (fresh : fifo ∉ done)
    (rxb : after.queued.rxb = state.queued.rxb ++ [config.fifoAddress fifo])
    (header : after.queued.header = Function.update state.queued.header (config.fifoAddress fifo)
      (headerOf ram (config.fifoAddress fifo)))
    (data : Loaded ram (config.fifoAddress fifo + sizeofObjTs) (config.length ram fifo)
      after.queued.fifoData)
    (others : ∀ address, address < config.fifoAddress fifo ∨
      config.fifoAddress fifo + (sizeofRx + config.split.payloadSize) ≤ address →
        after.queued.fifoData address = state.queued.fifoData address)
    (usage : after.fifoUsage = Function.update state.fifoUsage fifo (state.fifoUsage fifo + 1)) :
    Processed config ram before (done ++ [fifo]) after := by
  -- A FIFO of the longer list is the new one or an old one, never both.
  have split : ∀ other ∈ done ++ [fifo], other = fifo ∨ other ∈ done ∧ other ≠ fifo := by
    intro other member
    rcases List.mem_append.mp member with earlier | last
    · exact Or.inr ⟨earlier, fun same => fresh (same ▸ earlier)⟩
    · exact Or.inl (List.mem_singleton.mp last)
  constructor
  -- The new FIFO is a receive FIFO like the others.
  · intro other member
    rcases split other member with same | earlier
    · exact same ▸ rx
    · exact processed.rx other earlier.1
  -- Its address comes last in the list that is queued.
  · rw [rxb, processed.rxb, List.map_append, List.append_assoc]
    rfl
  · intro other member
    -- Its header is the one that was decoded; the other headers lie at other addresses.
    rw [header]
    rcases split other member with same | ⟨earlier, different⟩
    · rw [same, Function.update_self]
    · have apart := RxConfig.fifoAddress_ne (processed.rx other earlier) rx different
      rw [Function.update_of_ne apart]
      exact processed.header other earlier
  · intro other member
    rcases split other member with same | ⟨earlier, different⟩
    · exact same ▸ data
    · -- The object of another FIFO lies in front of this one or behind it.
      intro address above below
      have short := config.length_le ram other
      have sizes : sizeofObjTs = sizeofRx := rfl
      rw [others address ?_]
      · exact processed.data other earlier address above below
      · rcases Nat.lt_or_gt_of_ne different with less | greater
        · have apart := RxConfig.fifoAddress_lt (processed.rx other earlier) rx less
          omega
        · have apart := RxConfig.fifoAddress_lt rx (processed.rx other earlier) greater
          omega
  · intro other
    -- Its counter goes up by one, as the count in the longer list does.
    rw [usage, List.count_append]
    by_cases same : other = fifo
    · rw [same, Function.update_self, processed.usage fifo, List.count_eq_zero.mpr fresh,
        List.count_singleton_self, UInt64.add_assoc]
      rfl
    · have none : [fifo].count other = 0 :=
        List.count_eq_zero.mpr fun member => same (List.mem_singleton.mp member)
      rw [Function.update_of_ne same, processed.usage other, none, Nat.add_zero]

/-- Some receive FIFOs have been queued and released. -/
structure Fetched (config : RxConfig) (ram : Nat → UInt8) (before : RxState) (done : List Nat)
    (state : RxState) : Prop where
  processed : Processed config ram before done state
  released : ∃ fifos, state.sfr.incremented = before.sfr.incremented ++ fifos ∧ fifos.Perm done

/-- A receive FIFO lies among the FIFOs of the controller. -/
theorem RxConfig.Rx.lt {fifo : Nat} (rx : config.Rx fifo) : fifo < 32 := by
  -- The receive FIFOs end at the last FIFO of the controller.
  have first := config.split.rxFirst
  have inMask := config.split.inMask
  have below := rx.2
  omega

/-- A release one by one reports success when its transfers succeed. -/
theorem normalReleaseFifos_ret (start stop : Nat) (sfr : Sfr) :
    (normalReleaseFifos (fun _ => true) start stop sfr).1 = 0 := by
  -- The induction follows the loop: no transfer fails, so no round leaves it early.
  induction remaining : stop - start generalizing start sfr with
  | zero => rw [normalReleaseFifos, if_neg (by omega)]
  | succ count ih =>
    have done : (sfr.cmdWriteMask true (fifocon start) fifoconUinc fifoconUinc).1 = 0 := rfl
    rw [normalReleaseFifos, if_pos (by omega), if_neg (by rw [done]; decide)]
    exact ih (start + 1) _ (by omega)

/-- What is queued after the reads for one FIFO. -/
def readObject (config : RxConfig) (ram : Nat → UInt8) (fifo : Nat) (queued : Queued) : Queued :=
  let address := config.fifoAddress fifo
  let first := cmdReadn ram (fifoData address) address fifoMinSize queued
  let full :=
    if config.length ram fifo > fifoMinPayloadSize then
      patch (address + fifoMinSize)
        (window (fifoData (address + fifoMinSize))
          (config.length ram fifo - fifoMinPayloadSize) ram)
        first.fifoData
    else first.fifoData
  { fifoData := full
    header := Function.update queued.header address (headerOf ram address)
    rxb := queued.rxb ++ [address] }

/-- The first bytes of an object are its header and the least payload. -/
theorem fifoMinSize_eq : fifoMinSize = sizeofObjTs + fifoMinPayloadSize := rfl

/-- A round of the simple loop whose transfers succeed. -/
theorem readFifo_good (config : RxConfig) (ram : Nat → UInt8) (fifo : Nat) (state : RxState) :
    readFifo config .good ram fifo state =
      (0, { queued := readObject config ram fifo state.queued
            sfr := (normalReleaseFifos (fun _ => true) fifo (fifo + 1) state.sfr).2
            fifoUsage := Function.update state.fifoUsage fifo (state.fifoUsage fifo + 1) }) := by
  -- The first read brings at least the header and eight bytes of data.
  have first := loaded_patch ram (config.fifoAddress fifo) fifoMinSize state.queued.fifoData
  have header : Loaded ram (config.fifoAddress fifo) sizeofObjTs
      (cmdReadn ram (fifoData (config.fifoAddress fifo)) (config.fifoAddress fifo) fifoMinSize
        state.queued).fifoData := by
    intro other above below
    have sizes := fifoMinSize_eq
    exact first other above (by omega)
  have released : normalReleaseFifos (fun _ => true) fifo (fifo + 1) state.sfr =
      (0, (normalReleaseFifos (fun _ => true) fifo (fifo + 1) state.sfr).2) :=
    Prod.ext (normalReleaseFifos_ret fifo (fifo + 1) state.sfr) rfl
  have capped : min (config.table.canDlc2len (headerOf ram (config.fifoAddress fifo)).dlc)
      (if config.fd = true then 64 else 8) = config.length ram fifo := by
    rw [RxConfig.length, config.payload]
  -- No transfer fails, so neither error branch is taken.
  have never : ∀ more : Prop, ¬ (more ∧ true = false) := fun _ both => Bool.noConfusion both.2
  simp only [readFifo, ReadOutcome.good, if_true, transformRx_eq config.table header, capped]
  rw [if_neg (never _), released]
  simp only [ne_eq, not_true_eq_false, if_false]
  -- What is left is whether the frame is longer than what the first read brings.
  by_cases more : config.length ram fifo > fifoMinPayloadSize
  · simp only [readObject, cmdReadn, if_pos more]
  · simp only [readObject, cmdReadn, if_neg more]

/-- The reads for one FIFO bring in its data. -/
theorem readObject_data (config : RxConfig) (ram : Nat → UInt8) (fifo : Nat) (queued : Queued) :
    Loaded ram (config.fifoAddress fifo + sizeofObjTs) (config.length ram fifo)
      (readObject config ram fifo queued).fifoData := by
  -- A byte of the data comes from the first read or from the second one.
  intro other above below
  have sizes := fifoMinSize_eq
  have first := loaded_patch ram (config.fifoAddress fifo) fifoMinSize queued.fifoData
  show (if config.length ram fifo > fifoMinPayloadSize then _ else _ : Nat → UInt8) other = _
  by_cases more : config.length ram fifo > fifoMinPayloadSize
  · rw [if_pos more]
    -- The second read goes on where the first one ended.
    by_cases rest : other < config.fifoAddress fifo + fifoMinSize
    · rw [patch_outside (Or.inl rest)]
      exact first other (by omega) rest
    · exact loaded_patch ram _ _ _ other (by omega) (by omega)
    -- A short frame has all its data in the first read.
  · rw [if_neg more]
    exact first other (by omega) (by omega)

/-- The eight bytes that the shorter read brings lie inside the object, with or without FD. -/
theorem RxConfig.fifoMinPayloadSize_le (config : RxConfig) :
    fifoMinPayloadSize ≤ config.split.payloadSize := by
  -- The payload of a FIFO has 8 bytes or 64.
  rw [config.payload]
  cases config.fd <;> decide

/-- The reads for one FIFO stay inside its object. -/
theorem readObject_others (config : RxConfig) (ram : Nat → UInt8) (fifo : Nat) (queued : Queued)
    {address : Nat} (outside : address < config.fifoAddress fifo ∨
      config.fifoAddress fifo + (sizeofRx + config.split.payloadSize) ≤ address) :
    (readObject config ram fifo queued).fifoData address = queued.fifoData address := by
  -- Both reads end inside the object, because the payload has room for eight bytes at least.
  have sizes := fifoMinSize_eq
  have same : sizeofObjTs = sizeofRx := rfl
  have least := config.fifoMinPayloadSize_le
  have short := config.length_le ram fifo
  have first : patch (config.fifoAddress fifo)
      (window (fifoData (config.fifoAddress fifo)) fifoMinSize ram) queued.fifoData address =
        queued.fifoData address := by
    apply patch_outside
    rw [length_window]
    omega
  show (if config.length ram fifo > fifoMinPayloadSize then _ else _ : Nat → UInt8) address = _
  by_cases more : config.length ram fifo > fifoMinPayloadSize
  · rw [if_pos more, patch_outside]
    · exact first
    · rw [length_window]
      omega
  · rw [if_neg more]
    exact first

/-- One round of the simple loop fetches one FIFO. -/
theorem Fetched.readFifo (fetched : Fetched config ram before done state) {fifo : Nat}
    (rx : config.Rx fifo) (fresh : fifo ∉ done) :
    ∃ next, readFifo config .good ram fifo state = (0, next) ∧
      Fetched config ram before (done ++ [fifo]) next := by
  -- The round queues the object and then increments the FIFO it came from.
  obtain ⟨processed, fifos, incremented, perm⟩ := fetched
  refine ⟨_, readFifo_good config ram fifo state, ?_, fifos ++ [fifo], ?_, perm.append_right _⟩
  · apply processed.object rx fresh rfl rfl
    · exact readObject_data config ram fifo state.queued
    · intro address outside
      exact readObject_others config ram fifo state.queued outside
    · rfl
  · have one : fifo + 1 - fifo = 1 := by omega
    have within : fifo + 1 ≤ 32 := rx.lt
    have released : (normalReleaseFifos (fun _ => true) fifo (fifo + 1) state.sfr).2.incremented =
        state.sfr.incremented ++ List.range' fifo (fifo + 1 - fifo) :=
      normalReleaseFifos_incremented within state.sfr
    rw [incremented, one, List.append_assoc] at released
    exact released

/-- The loop over the objects of a range queues all of them. -/
theorem Processed.preprocess {count first : Nat}
    (processed : Processed config ram before done state)
    (rx : ∀ fifo ∈ List.range' first count, config.Rx fifo)
    (fresh : ∀ fifo ∈ List.range' first count, fifo ∉ done)
    (loaded : ∀ fifo ∈ List.range' first count, Loaded ram (config.fifoAddress fifo)
      (sizeofRx + config.split.payloadSize) state.queued.fifoData) :
    Processed config ram before (done ++ List.range' first count)
        (preprocess config count first state) ∧
      (preprocess config count first state).sfr = state.sfr := by
  -- The induction follows the loop, with the FIFOs that are done already.
  induction count generalizing first done state with
  | zero => exact ⟨(List.append_nil done).symm ▸ processed, rfl⟩
  | succ count ih =>
    rw [List.range'_succ] at rx fresh loaded
    have here := List.mem_cons_self (a := first) (l := List.range' (first + 1) count)
    have whole := loaded first here
    -- The whole object is loaded, so its header and its data are.
    have header : Loaded ram (config.fifoAddress first) sizeofObjTs state.queued.fifoData := by
      intro other above below
      have sizes : sizeofObjTs = sizeofRx := rfl
      exact whole other above (by omega)
    have short := config.length_le ram first
    let next : RxState :=
      { state with
        queued := (transformRx config.table (config.fifoAddress first) state.queued).2
        fifoUsage := Function.update state.fifoUsage first (state.fifoUsage first + 1) }
    have transformed := transformRx_eq config.table header
    have step : Processed config ram before (done ++ [first]) next := by
      apply processed.object (rx first here) (fresh first here)
      · show (transformRx config.table (config.fifoAddress first) state.queued).2.rxb = _
        rw [transformed]
      · show (transformRx config.table (config.fifoAddress first) state.queued).2.header = _
        rw [transformed]
      · intro other above below
        have sizes : sizeofObjTs = sizeofRx := rfl
        exact whole other (by omega) (by omega)
      · intro address _
        rfl
      · rfl
    -- The rest of the range lies behind this FIFO, so it was not queued in this round.
    have rest := ih step (fun fifo member => rx fifo (.tail _ member))
      (fun fifo member seen => ?_) (fun fifo member => loaded fifo (.tail _ member))
    · rw [List.append_assoc] at rest
      exact rest
    · rcases List.mem_append.mp seen with earlier | same
      · exact fresh fifo (.tail _ member) earlier
      · rw [List.mem_singleton.mp same, List.mem_range'_1] at member
        omega

/-- Either release of a range releases each of its FIFOs, and reports success. -/
theorem release_range (useBulkReleaseFifos : Bool) {start stop : Nat}
    (range : RxRange config.split start stop) (sfr : Sfr) :
    ∃ next,
      (if useBulkReleaseFifos then
          bulkReleaseFifos (ReadOutcome.good.bulkRelease start) config.split start stop sfr
        else normalReleaseFifos ReadOutcome.good.release start stop sfr) = (0, next) ∧
      next.incremented = sfr.incremented ++ List.range' start (stop - start) := by
  -- Only the transfers differ; the FIFOs that are incremented are those of the range.
  cases useBulkReleaseFifos with
  | true => exact ⟨_, rfl, bulkReleaseFifos_incremented range.fits range sfr⟩
  | false =>
    have ret := normalReleaseFifos_ret start stop sfr
    exact ⟨_, Prod.ext ret rfl, normalReleaseFifos_incremented range.fits sfr⟩

/-- The objects of a range of FIFOs lie inside one transfer from the first of them on. -/
theorem RxConfig.fifoAddress_within {start stop fifo : Nat} (first : config.Rx start)
    (rx : config.Rx fifo) (low : start ≤ fifo) (high : fifo < stop) :
    config.fifoAddress start ≤ config.fifoAddress fifo ∧
      config.fifoAddress fifo + (sizeofRx + config.split.payloadSize) ≤
        config.fifoAddress start + (stop - start) * (sizeofRx + config.split.payloadSize) := by
  obtain ⟨distance, rfl⟩ := Nat.exists_eq_add_of_le low
  have place := RxConfig.fifoAddress_add first rx
  -- The FIFO is one of those in the range, so its object ends where the transfer does or before.
  have room : (distance + 1) * (sizeofRx + config.split.payloadSize) ≤
      (stop - start) * (sizeofRx + config.split.payloadSize) :=
    Nat.mul_le_mul_right _ (by omega)
  rw [Nat.add_mul, Nat.one_mul] at room
  rw [place]
  omega

/-- One transfer for a range of FIFOs ends where the object of the next FIFO may start. -/
theorem RxConfig.fifoAddress_behind {start stop fifo : Nat} (first : config.Rx start)
    (nonempty : start < stop) (rx : config.Rx fifo) (behind : stop ≤ fifo) :
    config.fifoAddress start + (stop - start) * (sizeofRx + config.split.payloadSize) ≤
      config.fifoAddress fifo := by
  obtain ⟨distance, rfl⟩ := Nat.exists_eq_add_of_lt nonempty
  have above := first.1
  have below := rx.2
  have last : config.Rx (start + distance) := ⟨by omega, by omega⟩
  have place := RxConfig.fifoAddress_add first last
  have order := RxConfig.fifoAddress_lt last rx (by omega)
  -- The range has one FIFO more than its last one is away from its first one.
  have width : start + distance + 1 - start = distance + 1 := by omega
  rw [width, Nat.add_mul, Nat.one_mul]
  omega

/-- One transfer for a range of FIFOs overwrites none of the objects that are in the queue. -/
theorem Processed.transfer (processed : Processed config ram before done state) {start stop : Nat}
    (range : RxRange config.split start stop)
    (fresh : ∀ fifo, start ≤ fifo → fifo < stop → fifo ∉ done) (sfr : Sfr) :
    Processed config ram before done
      { state with
        queued := cmdReadn ram (fifoData (config.fifoAddress start)) (config.fifoAddress start)
          ((stop - start) * (sizeofRx + config.split.payloadSize)) state.queued
        sfr := sfr } := by
  obtain ⟨above, nonempty, below⟩ := range
  have first : config.Rx start := ⟨above, by omega⟩
  -- The transfer only fills in data, so all but the data is as before.
  refine ⟨processed.rx, processed.rxb, processed.header, ?_, processed.usage⟩
  intro fifo member other low high
  have rx := processed.rx fifo member
  have short := config.length_le ram fifo
  have sizes : sizeofObjTs = sizeofRx := rfl
  -- A FIFO that is done already is outside the range, so its object lies on either side of it.
  have apart : other < config.fifoAddress start ∨ config.fifoAddress start +
      (stop - start) * (sizeofRx + config.split.payloadSize) ≤ other := by
    rcases Nat.lt_or_ge fifo start with before | after
    · have order := RxConfig.fifoAddress_lt rx first before
      omega
    · have behind : stop ≤ fifo := Nat.le_of_not_lt fun inside => fresh fifo after inside member
      have order := RxConfig.fifoAddress_behind first nonempty rx behind
      omega
  have same : patch (config.fifoAddress start)
      (window (fifoData (config.fifoAddress start))
        ((stop - start) * (sizeofRx + config.split.payloadSize)) ram)
      state.queued.fifoData other = state.queued.fifoData other := by
    apply patch_outside
    rw [length_window]
    exact apart
  exact same.trans (processed.data fifo member other low high)

/-- One transfer fetches a range of FIFOs. -/
theorem Fetched.bulkReadFifoRange (fetched : Fetched config ram before done state)
    (useBulkReleaseFifos : Bool) {start stop : Nat} (range : RxRange config.split start stop)
    (fresh : ∀ fifo, start ≤ fifo → fifo < stop → fifo ∉ done) :
    ∃ next, bulkReadFifoRange config useBulkReleaseFifos .good ram start stop state = (0, next) ∧
      Fetched config ram before (done ++ List.range' start (stop - start)) next := by
  -- The range is read and released in one go, and its objects are queued one by one then.
  obtain ⟨processed, fifos, incremented, perm⟩ := fetched
  obtain ⟨sfr, released, added⟩ := release_range useBulkReleaseFifos range state.sfr
  have kept := processed.transfer range fresh sfr
  obtain ⟨above, nonempty, below⟩ := range
  have first : config.Rx start := ⟨above, by omega⟩
  have inside : ∀ fifo ∈ List.range' start (stop - start), start ≤ fifo ∧ fifo < stop := by
    intro fifo member
    rw [List.mem_range'_1] at member
    omega
  have rx : ∀ fifo ∈ List.range' start (stop - start), config.Rx fifo := by
    intro fifo member
    have place := inside fifo member
    exact ⟨by omega, by omega⟩
  -- Every object of the range lies inside the transfer, so all of it is there.
  have transferred := loaded_patch ram (config.fifoAddress start)
    ((stop - start) * (sizeofRx + config.split.payloadSize)) state.queued.fifoData
  have queued := kept.preprocess rx
    (fun fifo member => fresh fifo (inside fifo member).1 (inside fifo member).2)
    (fun fifo member other low high => by
      have place := RxConfig.fifoAddress_within first (rx fifo member) (inside fifo member).1
        (inside fifo member).2
      exact transferred other (by omega) (by omega))
  refine ⟨_, ?_, queued.1, fifos ++ List.range' start (stop - start), ?_, perm.append_right _⟩
  · simp only [Mcp25xxfd.bulkReadFifoRange, released]
    rfl
  · rw [queued.2]
    show sfr.incremented = _
    rw [added, incremented, List.append_assoc]

/-- The receive FIFOs that a mask names. -/
def fifosOf (rxif : BitVec 32) : List Nat := (List.range 32).filter rxif.getLsbD

/-- A mask names the FIFOs of its bits. -/
theorem mem_fifosOf {rxif : BitVec 32} {fifo : Nat} :
    fifo ∈ fifosOf rxif ↔ rxif.getLsbD fifo = true := by
  -- A bit of the mask is one of the 32.
  rw [fifosOf, List.mem_filter, List.mem_range]
  exact ⟨fun both => both.2, fun set => ⟨BitVec.lt_of_getLsbD set, set⟩⟩

/-- FIFOs without repetition that are those of a mask are a permutation of them. -/
theorem perm_fifosOf {rxif : BitVec 32} (nodup : done.Nodup)
    (exact_ : ∀ fifo, fifo ∈ done ↔ rxif.getLsbD fifo = true) : done.Perm (fifosOf rxif) := by
  -- Neither list has a FIFO twice.
  apply (List.perm_ext_iff_of_nodup nodup (List.nodup_range.filter _)).mpr
  intro fifo
  rw [exact_ fifo]
  exact mem_fifosOf.symm

/-- An index that is not negative keeps its value in a comparison. -/
theorem toUnsigned_natCast {n : Nat} (small : n < 32) : toUnsigned (n : Int) = n := by
  -- The index is below 2^32.
  rw [toUnsigned, BitVec.ofInt_natCast, BitVec.toNat_ofNat]
  exact Nat.mod_eq_of_lt (by omega)

/-- A bit inside the word can be tested. -/
theorem testBit_natCast (mask : BitVec 32) {n : Nat} (small : n < 32) :
    testBit mask (n : Int) = some (mask.getLsbD n) := by
  -- The index is one of a bit.
  rw [testBit, if_pos (by omega)]
  rfl

variable {rxif : BitVec 32}

/-- The FIFOs of a mask of receive FIFOs are receive FIFOs. -/
theorem RxConfig.rx_of_mask (contained : Subset rxif config.split.rxFifoMask) {fifo : Nat}
    (set : rxif.getLsbD fifo = true) : config.Rx fifo :=
  (config.split.getLsbD_rxFifoMask fifo).mp (subset_iff.mp contained fifo set)

/-- The FIFOs above an index stay those above the next one when the bit there is clear. -/
theorem mem_skip {n : Nat} (members : ∀ fifo, fifo ∈ done ↔ rxif.getLsbD fifo = true ∧ n + 1 < fifo)
    (clear : rxif.getLsbD (n + 1) = false) (fifo : Nat) :
    fifo ∈ done ↔ rxif.getLsbD fifo = true ∧ n < fifo := by
  rw [members fifo]
  apply and_congr_right
  intro bit
  -- The one FIFO between the two bounds is the one whose bit is clear.
  have different : fifo ≠ n + 1 := fun same => by simp [same, clear] at bit
  omega

/-- The FIFOs above an index and the FIFO there are those above the next one. -/
theorem mem_take {n : Nat} (members : ∀ fifo, fifo ∈ done ↔ rxif.getLsbD fifo = true ∧ n + 1 < fifo)
    (set : rxif.getLsbD (n + 1) = true) (fifo : Nat) :
    fifo ∈ done ++ [n + 1] ↔ rxif.getLsbD fifo = true ∧ n < fifo := by
  -- A FIFO is the one at the index or another one.
  rw [List.mem_append, List.mem_singleton, members fifo]
  by_cases same : fifo = n + 1
  · -- The FIFO at the index is named by the mask, and it lies above the next index.
    rw [same]
    simp [set]
  · constructor
    · intro either
      rcases either with ⟨bit, above⟩ | here
      · exact ⟨bit, by omega⟩
      · exact absurd here same
    · intro both
      exact Or.inl ⟨both.1, by omega⟩

section SimpleRounds

variable {outcome : ReadOutcome} {n fuel : Nat}

/-- Below the receive FIFOs the simple loop ends. -/
theorem readFifosLoop_ended (small : n < 32) (low : n < config.split.rxFifoStart)
    (enough : n < fuel) :
    readFifosLoop config outcome ram rxif fuel (n : Int) state = some (0, state) := by
  -- The comparison is one of unsigned numbers, and fails.
  obtain ⟨fuel, rfl⟩ : ∃ rest, fuel = rest + 1 := ⟨fuel - 1, by omega⟩
  rw [readFifosLoop, toUnsigned_natCast small, if_neg (Nat.not_le.mpr low)]

/-- The round of a clear bit only goes down to the next FIFO. -/
theorem readFifosLoop_clear (small : n + 1 < 32) (inside : config.split.rxFifoStart ≤ n + 1)
    (clear : rxif.getLsbD (n + 1) = false) :
    readFifosLoop config outcome ram rxif (fuel + 1) ((n + 1 : Nat) : Int) state =
      readFifosLoop config outcome ram rxif fuel (n : Int) state := by
  -- The bit is tested, and nothing is read.
  have down : ((n + 1 : Nat) : Int) - 1 = (n : Int) := by omega
  rw [readFifosLoop, toUnsigned_natCast small, if_pos inside, testBit_natCast rxif small,
    Option.bind_some, down, clear, if_neg Bool.false_ne_true]

/-- The round of a set bit reads its FIFO, and goes down when that succeeds. -/
theorem readFifosLoop_set (small : n + 1 < 32) (inside : config.split.rxFifoStart ≤ n + 1)
    (set : rxif.getLsbD (n + 1) = true) {ret : Int} {next : RxState}
    (ran : readFifo config outcome ram (n + 1) state = (ret, next)) :
    readFifosLoop config outcome ram rxif (fuel + 1) ((n + 1 : Nat) : Int) state =
      if ret ≠ 0 then some (ret, next)
      else readFifosLoop config outcome ram rxif fuel (n : Int) next := by
  -- The bit is tested, and the FIFO at the index is read.
  have down : ((n + 1 : Nat) : Int) - 1 = (n : Int) := by omega
  have index : ((n + 1 : Nat) : Int).toNat = n + 1 := Int.toNat_natCast (n + 1)
  rw [readFifosLoop, toUnsigned_natCast small, if_pos inside, testBit_natCast rxif small,
    Option.bind_some, down, index, set, if_pos rfl, ran]

end SimpleRounds

/-- One more FIFO leaves a list without repetition when it is a new one. -/
theorem nodup_concat {fifo : Nat} (nodup : done.Nodup) (fresh : fifo ∉ done) :
    (done ++ [fifo]).Nodup := by
  -- The new FIFO is compared with each of the old ones.
  refine List.nodup_append.mpr ⟨nodup, List.pairwise_singleton _ _, ?_⟩
  intro other old same new equal
  rw [List.mem_singleton.mp new] at equal
  exact fresh (equal ▸ old)

/-- A range leaves a list without repetition when all its FIFOs are new ones. -/
theorem nodup_range {start stop : Nat} (nodup : done.Nodup)
    (fresh : ∀ fifo, start ≤ fifo → fifo < stop → fifo ∉ done) :
    (done ++ List.range' start (stop - start)).Nodup := by
  -- Each FIFO of the range is compared with each of the old ones.
  refine List.nodup_append.mpr ⟨nodup, List.nodup_range', ?_⟩
  intro fifo old other new same
  rw [List.mem_range'_1] at new
  exact fresh other (by omega) (by omega) (same ▸ old)

/-- What holds of the simple loop at an index, when no transfer fails. -/
structure SimpleFetching (config : RxConfig) (ram : Nat → UInt8) (rxif : BitVec 32)
    (before : RxState) (n : Nat) (done : List Nat) (state : RxState) : Prop where
  small : n < 32
  nodup : done.Nodup
  members : ∀ fifo, fifo ∈ done ↔ rxif.getLsbD fifo = true ∧ n < fifo
  fetched : Fetched config ram before done state

/-- Below the receive FIFOs the whole mask is done. -/
theorem SimpleFetching.perm {n : Nat} (inv : SimpleFetching config ram rxif before n done state)
    (contained : Subset rxif config.split.rxFifoMask) (low : n < config.split.rxFifoStart) :
    done.Perm (fifosOf rxif) := by
  -- Every FIFO of the mask is a receive FIFO, so it lies above the index.
  refine perm_fifosOf inv.nodup fun fifo => ?_
  rw [inv.members fifo]
  refine ⟨fun both => both.1, fun set => ⟨set, ?_⟩⟩
  have above := (RxConfig.rx_of_mask contained set).1
  omega

/-- A clear bit leaves everything as it is. -/
theorem SimpleFetching.clear {n : Nat}
    (inv : SimpleFetching config ram rxif before (n + 1) done state)
    (clear : rxif.getLsbD (n + 1) = false) :
    SimpleFetching config ram rxif before n done state where
  small := Nat.lt_of_succ_lt inv.small
  nodup := inv.nodup
  members := mem_skip inv.members clear
  fetched := inv.fetched

/-- A set bit fetches its FIFO. -/
theorem SimpleFetching.set {n : Nat}
    (inv : SimpleFetching config ram rxif before (n + 1) done state)
    (contained : Subset rxif config.split.rxFifoMask) (set : rxif.getLsbD (n + 1) = true) :
    ∃ next, readFifo config .good ram (n + 1) state = (0, next) ∧
      SimpleFetching config ram rxif before n (done ++ [n + 1]) next := by
  -- The FIFO lies below all that are done.
  have fresh : n + 1 ∉ done := fun member => Nat.lt_irrefl _ ((inv.members (n + 1)).mp member).2
  obtain ⟨next, read, fetched⟩ := inv.fetched.readFifo (RxConfig.rx_of_mask contained set) fresh
  exact ⟨next, read, Nat.lt_of_succ_lt inv.small, nodup_concat inv.nodup fresh,
    mem_take inv.members set, fetched⟩

/-- The simple loop ends, and then it has fetched the FIFOs of the mask. -/
theorem readFifosLoop_fetches (contained : Subset rxif config.split.rxFifoMask) :
    ∀ (n : Nat) (done : List Nat) (state : RxState),
      SimpleFetching config ram rxif before n done state →
      ∃ next all,
        (∀ fuel, n < fuel →
          readFifosLoop config .good ram rxif fuel (n : Int) state = some (0, next)) ∧
        all.Perm (fifosOf rxif) ∧ Fetched config ram before all next := by
  -- The induction goes down with the index of the loop, to the one below the receive FIFOs.
  have ended : ∀ {n done state}, SimpleFetching config ram rxif before n done state →
      n < config.split.rxFifoStart → ∃ next all,
        (∀ fuel, n < fuel →
          readFifosLoop config .good ram rxif fuel (n : Int) state = some (0, next)) ∧
        all.Perm (fifosOf rxif) ∧ Fetched config ram before all next :=
    fun {_ done state} inv low => ⟨state, done,
      fun _ enough => readFifosLoop_ended inv.small low enough, inv.perm contained low, inv.fetched⟩
  intro n
  induction n with
  | zero => exact fun done state inv => ended inv config.behindTef
  | succ n ih =>
    intro done state inv
    by_cases last : n + 1 < config.split.rxFifoStart
    · exact ended inv last
    · have inside := Nat.le_of_not_lt last
      cases set : rxif.getLsbD (n + 1) with
      | false =>
        obtain ⟨next, all, ran, perm, fetched⟩ := ih done state (inv.clear set)
        refine ⟨next, all, fun fuel enough => ?_, perm, fetched⟩
        obtain ⟨fuel, rfl⟩ : ∃ rest, fuel = rest + 1 := ⟨fuel - 1, by omega⟩
        rw [readFifosLoop_clear inv.small inside set]
        exact ran fuel (by omega)
      | true =>
        obtain ⟨after, read, kept⟩ := inv.set contained set
        obtain ⟨next, all, ran, perm, fetched⟩ := ih (done ++ [n + 1]) after kept
        refine ⟨next, all, fun fuel enough => ?_, perm, fetched⟩
        obtain ⟨fuel, rfl⟩ : ∃ rest, fuel = rest + 1 := ⟨fuel - 1, by omega⟩
        rw [readFifosLoop_set inv.small inside set read, if_neg (not_not.mpr rfl)]
        exact ran fuel (by omega)

/-- A clear bit ends the inner loop where it is, whatever the index. -/
theorem takeRange_clear {n fuel : Nat} {mask : BitVec 32} (start : Int) (small : n < 32)
    (enough : n < fuel) (clear : mask.getLsbD n = false) :
    takeRange fuel (n : Int) start mask = some ((n : Int), start, mask) := by
  -- The first test ends the loop.
  obtain ⟨fuel, rfl⟩ : ∃ rest, fuel = rest + 1 := ⟨fuel - 1, by omega⟩
  rw [takeRange, testBit_natCast mask small, Option.bind_some, clear, if_neg Bool.false_ne_true]

/-- The inner loop ends at the next clear bit, and takes the bits that it passed off the mask. -/
theorem takeRange_eq :
    ∀ (n : Nat) (start : Int) (mask : BitVec 32), n < 32 → mask.getLsbD 0 = false →
      ∃ (next : Nat) (rest : BitVec 32), next ≤ n ∧
        (∀ fuel, n < fuel → takeRange fuel (n : Int) start mask =
          some ((next : Int), if next = n then start else ((next + 1 : Nat) : Int), rest)) ∧
        mask.getLsbD next = false ∧
        (∀ fifo, next < fifo → fifo ≤ n → mask.getLsbD fifo = true) ∧
        ∀ fifo, rest.getLsbD fifo = true ↔
          mask.getLsbD fifo = true ∧ ¬ (next < fifo ∧ fifo ≤ n) := by
  -- The induction goes down with the index; bit 0 is clear, so the loop ends there at the latest.
  intro n
  induction n with
  | zero =>
    intro start mask small clear
    refine ⟨0, mask, Nat.le_refl 0, fun fuel enough => ?_, clear, fun fifo => by omega,
      fun fifo => ?_⟩
    · rw [takeRange_clear start small enough clear, if_pos rfl]
    · exact ⟨fun set => ⟨set, by omega⟩, fun both => both.1⟩
  | succ n ih =>
    intro start mask small lowest
    cases set : mask.getLsbD (n + 1) with
    | false =>
      refine ⟨n + 1, mask, Nat.le_refl _, fun fuel enough => ?_, set, fun fifo => by omega,
        fun fifo => ?_⟩
      · rw [takeRange_clear start small enough set, if_pos rfl]
      · exact ⟨fun bit => ⟨bit, by omega⟩, fun both => both.1⟩
    | true =>
      have down : ((n + 1 : Nat) : Int) - 1 = (n : Int) := by omega
      have index : ((n + 1 : Nat) : Int).toNat = n + 1 := Int.toNat_natCast (n + 1)
      -- The round takes its own bit off the mask and leaves the other ones.
      have bits : ∀ fifo, (mask &&& ~~~(bit (n + 1))).getLsbD fifo = true ↔
          mask.getLsbD fifo = true ∧ fifo ≠ n + 1 := by
        intro fifo
        rw [getLsbD_clear, Bool.and_eq_true, decide_eq_true_eq]
      have clear : (mask &&& ~~~(bit (n + 1))).getLsbD 0 = false := by
        rw [getLsbD_clear, lowest, Bool.false_and]
      obtain ⟨next, rest, le, taken, ends, passed, left⟩ := ih ((n + 1 : Nat) : Int)
        (mask &&& ~~~(bit (n + 1))) (by omega) clear
      have different : next ≠ n + 1 := by omega
      refine ⟨next, rest, by omega, fun fuel enough => ?_, ?_, ?_, ?_⟩
      · obtain ⟨fuel, rfl⟩ : ∃ rest, fuel = rest + 1 := ⟨fuel - 1, by omega⟩
        rw [takeRange, testBit_natCast mask small, Option.bind_some, set, if_pos rfl, down, index,
          taken fuel (by omega), if_neg different]
        -- Where the loop ends in the very next round, this index is the start of the range.
        by_cases first : next = n
        · rw [if_pos first, first]
        · rw [if_neg first]
      · rw [← Bool.not_eq_true] at ends ⊢
        exact fun bit => ends ((bits next).mpr ⟨bit, different⟩)
      · intro fifo above below
        by_cases last : fifo = n + 1
        · exact last ▸ set
        · exact ((bits fifo).mp (passed fifo above (by omega))).1
      · intro fifo
        rw [left fifo, bits fifo]
        constructor
        · intro all
          have other := all.1.2
          have outside := all.2
          exact ⟨all.1.1, by omega⟩
        · intro both
          have outside := both.2
          exact ⟨⟨both.1, by omega⟩, by omega⟩

/-- The FIFOs that are not in the mask any more and those of a range are those not in the rest. -/
theorem mem_range {mask rest : BitVec 32} {next n : Nat}
    (members : ∀ fifo, fifo ∈ done ↔ rxif.getLsbD fifo = true ∧ mask.getLsbD fifo = false)
    (masked : ∀ fifo, mask.getLsbD fifo = true → rxif.getLsbD fifo = true)
    (passed : ∀ fifo, next < fifo → fifo ≤ n → mask.getLsbD fifo = true)
    (left : ∀ fifo, rest.getLsbD fifo = true ↔
      mask.getLsbD fifo = true ∧ ¬ (next < fifo ∧ fifo ≤ n)) (fifo : Nat) :
    fifo ∈ done ++ List.range' (next + 1) (n + 1 - (next + 1)) ↔
      rxif.getLsbD fifo = true ∧ rest.getLsbD fifo = false := by
  -- A FIFO is inside the range or outside of it.
  rw [List.mem_append, members fifo, List.mem_range'_1, ← Bool.not_eq_true, ← Bool.not_eq_true,
    left fifo]
  by_cases inside : next < fifo ∧ fifo ≤ n
  · -- A FIFO of the range was in the mask, and it is not in the rest.
    have named := masked fifo (passed fifo inside.1 inside.2)
    exact ⟨fun _ => ⟨named, fun both => both.2 inside⟩, fun _ => Or.inr (by omega)⟩
  · -- Outside the range the mask and the rest agree.
    constructor
    · intro either
      rcases either with earlier | here
      · exact ⟨earlier.1, fun both => earlier.2 both.1⟩
      · omega
    · intro both
      exact Or.inl ⟨both.1, fun bit => both.2 ⟨bit, inside⟩⟩

/-- The range of FIFOs that the inner loop takes off a mask, from a set bit down to a clear one. -/
structure TakenRange (split : FifoSplit) (mask : BitVec 32) (next n : Nat) (rest : BitVec 32) :
    Prop where
  range : RxRange split (next + 1) (n + 1)
  ends : mask.getLsbD next = false
  passed : ∀ fifo, next < fifo → fifo ≤ n → mask.getLsbD fifo = true
  left : ∀ fifo, rest.getLsbD fifo = true ↔
    mask.getLsbD fifo = true ∧ ¬ (next < fifo ∧ fifo ≤ n)

section BulkRounds

variable {outcome : ReadOutcome} {useBulkReleaseFifos : Bool} {n : Nat} {mask : BitVec 32}

/-- The index of a loop whose mask has bits is one of a receive FIFO. -/
theorem RxConfig.index_of_mask (contained : Subset mask config.split.rxFifoMask) (some : mask ≠ 0)
    {i : Int} (masked : ∀ fifo : Nat, mask.getLsbD fifo = true → (fifo : Int) ≤ i) :
    ∃ n : Nat, i = (n : Int) ∧ config.split.rxFifoStart ≤ n := by
  -- The index is not below any bit of the mask.
  obtain ⟨top, set⟩ := exists_getLsbD some
  have above := (RxConfig.rx_of_mask contained set).1
  have below := masked top set
  obtain ⟨n, rfl⟩ := Int.eq_ofNat_of_zero_le (show 0 ≤ i by omega)
  exact ⟨n, rfl, by omega⟩

/-- An empty mask ends the fast loop. -/
theorem bulkReadFifosLoop_empty (fuel : Nat) (i : Int) :
    bulkReadFifosLoop config useBulkReleaseFifos outcome ram (fuel + 1) i 0 state =
      some (0, state) := by
  -- The mask is tested before the index is.
  rw [bulkReadFifosLoop, if_neg fun both => both.1 rfl]

/-- The round of a clear bit only goes down to the next FIFO. -/
theorem bulkReadFifosLoop_clear (some : mask ≠ 0) (small : n < 32)
    (inside : config.split.rxFifoStart ≤ n) (clear : mask.getLsbD n = false) (fuel : Nat) :
    bulkReadFifosLoop config useBulkReleaseFifos outcome ram (fuel + 1) (n : Int) mask state =
      bulkReadFifosLoop config useBulkReleaseFifos outcome ram fuel ((n : Int) - 1) mask state := by
  -- The bit is tested, and nothing is read.
  have above : config.split.rxFifoStart ≤ toUnsigned (n : Int) := by
    rw [toUnsigned_natCast small]
    exact inside
  rw [bulkReadFifosLoop, if_pos ⟨some, above⟩, testBit_natCast mask small, Option.bind_some,
    clear, if_neg Bool.false_ne_true]

/-- The round of a set bit reads the range below it, and goes on behind that when it succeeds. -/
theorem bulkReadFifosLoop_set (contained : Subset mask config.split.rxFifoMask)
    (set : mask.getLsbD n = true) :
    ∃ next rest, TakenRange config.split mask next n rest ∧
      ∀ {ret : Int} {state after : RxState},
        bulkReadFifoRange config useBulkReleaseFifos outcome ram (next + 1) (n + 1) state =
          (ret, after) →
        ∀ fuel > n,
          bulkReadFifosLoop config useBulkReleaseFifos outcome ram (fuel + 1) (n : Int) mask state =
            if ret ≠ 0 then some (ret, after)
            else bulkReadFifosLoop config useBulkReleaseFifos outcome ram fuel ((next : Int) - 1)
              rest after := by
  have rx := RxConfig.rx_of_mask contained set
  have small := rx.lt
  -- No receive FIFO is the one of bit 0, so the inner loop ends above it.
  have behind := config.behindTef
  have lowest : mask.getLsbD 0 = false := by
    rw [← Bool.not_eq_true]
    intro bit
    have above := (RxConfig.rx_of_mask contained bit).1
    omega
  obtain ⟨next, rest, le, taken, ends, passed, left⟩ := takeRange_eq n n mask small lowest
  have less : next ≠ n := fun same => by simp [same, set] at ends
  have lowRx := RxConfig.rx_of_mask contained (passed (next + 1) (by omega) (by omega))
  refine ⟨next, rest, ⟨⟨lowRx.1, by omega, rx.2⟩, ends, passed, left⟩, ?_⟩
  intro ret state after ran fuel enough
  have index : (n : Int).toNat = n := Int.toNat_natCast n
  have start : ((next + 1 : Nat) : Int).toNat = next + 1 := Int.toNat_natCast (next + 1)
  have above : config.split.rxFifoStart ≤ toUnsigned (n : Int) := by
    rw [toUnsigned_natCast small]
    exact rx.1
  have some : mask ≠ 0 := fun none => by simp [none] at set
  rw [bulkReadFifosLoop, if_pos ⟨some, above⟩, testBit_natCast mask small, Option.bind_some, set,
    if_pos rfl, taken fuel enough, Option.bind_some, if_neg less]
  simp only [start, index, ran]

end BulkRounds

/-- What holds of the fast loop at an index, when no transfer fails. -/
structure BulkFetching (config : RxConfig) (ram : Nat → UInt8) (rxif : BitVec 32)
    (before : RxState) (i : Int) (mask : BitVec 32) (done : List Nat) (state : RxState) :
    Prop where
  low : -1 ≤ i
  small : i < 32
  masked : ∀ fifo : Nat, mask.getLsbD fifo = true → rxif.getLsbD fifo = true ∧ (fifo : Int) ≤ i
  nodup : done.Nodup
  members : ∀ fifo, fifo ∈ done ↔ rxif.getLsbD fifo = true ∧ mask.getLsbD fifo = false
  fetched : Fetched config ram before done state

namespace BulkFetching

variable {n : Nat} {mask : BitVec 32}

/-- The rest of the mask is one of receive FIFOs. -/
theorem contained {i : Int} (inv : BulkFetching config ram rxif before i mask done state)
    (contained : Subset rxif config.split.rxFifoMask) : Subset mask config.split.rxFifoMask :=
  subset_iff.mpr fun fifo set => subset_iff.mp contained fifo (inv.masked fifo set).1

/-- Once the rest of the mask is empty, the whole mask is done. -/
theorem perm {i : Int} (inv : BulkFetching config ram rxif before i 0 done state) :
    done.Perm (fifosOf rxif) := by
  -- What is done is what is not in the rest.
  refine perm_fifosOf inv.nodup fun fifo => ?_
  rw [inv.members fifo]
  exact ⟨fun both => both.1, fun set => ⟨set, BitVec.getLsbD_zero ..⟩⟩

/-- A clear bit leaves everything as it is. -/
theorem clear (inv : BulkFetching config ram rxif before (n : Int) mask done state)
    (clear : mask.getLsbD n = false) :
    BulkFetching config ram rxif before ((n : Int) - 1) mask done state where
  low := by omega
  small := by have small := inv.small; omega
  masked fifo bit := by
    -- The bit at the index is clear, so the others are below.
    have different : fifo ≠ n := fun same => by simp [same, clear] at bit
    have le := (inv.masked fifo bit).2
    exact ⟨(inv.masked fifo bit).1, by omega⟩
  nodup := inv.nodup
  members := inv.members
  fetched := inv.fetched

/-- The FIFOs of a range that is taken are not done yet. -/
theorem fresh {next : Nat} {rest : BitVec 32}
    (inv : BulkFetching config ram rxif before (n : Int) mask done state)
    (taken : TakenRange config.split mask next n rest) (fifo : Nat) (start : next + 1 ≤ fifo)
    (stop : fifo < n + 1) : fifo ∉ done := by
  -- They are still in the mask.
  intro member
  have clear := ((inv.members fifo).mp member).2
  rw [taken.passed fifo (by omega) (by omega)] at clear
  cases clear

/-- A range that is fetched goes on below the clear bit that ended it. -/
theorem range {next : Nat} {rest : BitVec 32} {after : RxState}
    (inv : BulkFetching config ram rxif before (n : Int) mask done state)
    (taken : TakenRange config.split mask next n rest)
    (fetched : Fetched config ram before
      (done ++ List.range' (next + 1) (n + 1 - (next + 1))) after) :
    BulkFetching config ram rxif before ((next : Int) - 1) rest
      (done ++ List.range' (next + 1) (n + 1 - (next + 1))) after where
  low := by omega
  small := by have small := inv.small; have range := taken.range.2.1; omega
  masked fifo bit := by
    -- A bit of the rest is neither in the range nor the clear one below it.
    have both := (taken.left fifo).mp bit
    have le := (inv.masked fifo both.1).2
    have different : fifo ≠ next := fun same => by simp [same, taken.ends] at both
    have outside := both.2
    exact ⟨(inv.masked fifo both.1).1, by omega⟩
  nodup := nodup_range inv.nodup (inv.fresh taken)
  members := mem_range inv.members (fun fifo bit => (inv.masked fifo bit).1) taken.passed taken.left
  fetched := fetched

end BulkFetching

/-- The fast loop ends, and then it has fetched the FIFOs of the mask. -/
theorem bulkReadFifosLoop_fetches (contained : Subset rxif config.split.rxFifoMask)
    (useBulkReleaseFifos : Bool) :
    ∀ (bound : Nat) (i : Int) (mask : BitVec 32) (done : List Nat) (state : RxState),
      i + 1 < bound → BulkFetching config ram rxif before i mask done state →
      ∃ next all,
        (∀ fuel ≥ bound, bulkReadFifosLoop config useBulkReleaseFifos .good ram fuel i mask state =
          some (0, next)) ∧
        all.Perm (fifosOf rxif) ∧ Fetched config ram before all next := by
  intro bound
  -- The induction is on the rounds: each one goes down, by a single FIFO or by a whole range.
  induction bound with
  | zero =>
    intro i mask done state rounds inv
    have low := inv.low
    omega
  | succ bound ih =>
    intro i mask done state rounds inv
    have round : ∀ fuel ≥ bound + 1, ∃ rest, fuel = rest + 1 ∧ rest ≥ bound :=
      fun fuel enough => ⟨fuel - 1, by omega, by omega⟩
    by_cases empty : mask = 0
    · subst empty
      refine ⟨state, done, fun fuel enough => ?_, inv.perm, inv.fetched⟩
      obtain ⟨fuel, rfl, _⟩ := round fuel enough
      exact bulkReadFifosLoop_empty fuel i
    · obtain ⟨n, rfl, inside⟩ := RxConfig.index_of_mask (inv.contained contained) empty
        fun fifo set => (inv.masked fifo set).2
      have small := inv.small
      cases set : mask.getLsbD n with
      | false =>
        obtain ⟨next, all, ran, perm, fetched⟩ :=
          ih _ mask done state (by omega) (inv.clear set)
        refine ⟨next, all, fun fuel enough => ?_, perm, fetched⟩
        obtain ⟨fuel, rfl, remaining⟩ := round fuel enough
        rw [bulkReadFifosLoop_clear empty (by omega) inside set]
        exact ran fuel remaining
      | true =>
        obtain ⟨next, rest, taken, step⟩ :=
          bulkReadFifosLoop_set (inv.contained contained) set
        obtain ⟨after, read, fetched⟩ :=
          inv.fetched.bulkReadFifoRange useBulkReleaseFifos taken.range (inv.fresh taken)
        have lower := taken.range.2.1
        obtain ⟨last, all, ran, perm, fetched⟩ :=
          ih _ rest _ after (by omega) (inv.range taken fetched)
        refine ⟨last, all, fun fuel enough => ?_, perm, fetched⟩
        obtain ⟨fuel, rfl, remaining⟩ := round fuel enough
        rw [step read fuel (by omega), if_neg (not_not.mpr rfl)]
        exact ran fuel remaining

/-- What reading the receive FIFOs of a mask is for. -/
structure ReadsAll (config : RxConfig) (ram : Nat → UInt8) (rxif : BitVec 32)
    (before after : RxState) : Prop where
  /-- The objects of the FIFOs are queued, each once and behind what is in the queue already. -/
  objects : ∃ objects, after.queued.rxb = before.queued.rxb ++ objects ∧
    objects.Perm ((fifosOf rxif).map config.fifoAddress)
  /-- Their headers and their data are those in the RAM. -/
  headers : ∀ fifo ∈ fifosOf rxif,
    after.queued.header (config.fifoAddress fifo) = headerOf ram (config.fifoAddress fifo)
  data : ∀ fifo ∈ fifosOf rxif,
    after.queued.data (config.fifoAddress fifo) (config.length ram fifo) =
      window (fifoData (config.fifoAddress fifo + sizeofObjTs)) (config.length ram fifo) ram
  /-- The FIFOs are released, each once. -/
  released : ∃ fifos, after.sfr.incremented = before.sfr.incremented ++ fifos ∧
    fifos.Perm (fifosOf rxif)
  usage : ∀ fifo, after.fifoUsage fifo =
    before.fifoUsage fifo + if rxif.getLsbD fifo then 1 else 0

/-- The bytes of data that an object in the queue has. -/
def RxConfig.dataOf (config : RxConfig) (queued : Queued) (obj : Nat) : List UInt8 :=
  queued.data obj (min (config.table.canDlc2len (queued.header obj).dlc) config.split.payloadSize)

/-- Two passes queue the same set of objects, with the same headers and the same data. -/
def SameObjects (config : RxConfig) (before first second : RxState) : Prop :=
  ∃ objects others, first.queued.rxb = before.queued.rxb ++ objects ∧
    second.queued.rxb = before.queued.rxb ++ others ∧ objects.Perm others ∧
      ∀ obj ∈ objects, first.queued.header obj = second.queued.header obj ∧
        config.dataOf first.queued obj = config.dataOf second.queued obj

/-- Bytes that are loaded are the bytes of the RAM. -/
theorem window_loaded {address n : Nat} {data : Nat → UInt8} (loaded : Loaded ram address n data) :
    window address n data = window (fifoData address) n ram := by
  -- The two windows have the same length, and each place holds the same byte.
  refine List.ext_getElem? fun i => ?_
  rw [getElem?_window, getElem?_window]
  by_cases inside : i < n
  · have place : fifoData address + i = fifoData (address + i) := by
      unfold fifoData
      omega
    rw [if_pos inside, if_pos inside, place, loaded (address + i) (by omega) (by omega)]
  · rw [if_neg inside, if_neg inside]

/-- Fetching the FIFOs of a mask in some order is what reading them is for. -/
theorem Fetched.readsAll {all : List Nat} (fetched : Fetched config ram before all after)
    (perm : all.Perm (fifosOf rxif)) : ReadsAll config ram rxif before after := by
  -- Each field is one of what was processed, for a list that is the one of the mask.
  obtain ⟨processed, fifos, incremented, released⟩ := fetched
  refine ⟨⟨all.map config.fifoAddress, processed.rxb, perm.map _⟩, ?_, ?_,
    ⟨fifos, incremented, released.trans perm⟩, ?_⟩
  · exact fun fifo member => processed.header fifo (perm.mem_iff.mpr member)
  · exact fun fifo member => window_loaded (processed.data fifo (perm.mem_iff.mpr member))
  · intro fifo
    -- A FIFO is counted once when the mask names it, and not at all otherwise.
    have nodup : (fifosOf rxif).Nodup := List.nodup_range.filter _
    rw [processed.usage fifo, perm.count_eq]
    congr 1
    by_cases set : rxif.getLsbD fifo = true
    · rw [if_pos set, List.count_eq_one_of_mem nodup (mem_fifosOf.mpr set)]
      rfl
    · rw [if_neg set, List.count_eq_zero.mpr fun member => set (mem_fifosOf.mp member)]
      rfl

/-- Two passes that do what reading is for queue the same objects. -/
theorem ReadsAll.same {first second : RxState} (one : ReadsAll config ram rxif before first)
    (other : ReadsAll config ram rxif before second) : SameObjects config before first second := by
  obtain ⟨objects, queued, perm⟩ := one.objects
  obtain ⟨others, requeued, permuted⟩ := other.objects
  -- Both queue the FIFOs of the mask, and each object has what the RAM has.
  refine ⟨objects, others, queued, requeued, perm.trans permuted.symm, fun obj member => ?_⟩
  obtain ⟨fifo, named, rfl⟩ := List.mem_map.mp (perm.mem_iff.mp member)
  have headers : first.queued.header (config.fifoAddress fifo) =
      second.queued.header (config.fifoAddress fifo) :=
    (one.headers fifo named).trans (other.headers fifo named).symm
  have data := (one.data fifo named).trans (other.data fifo named).symm
  rw [RxConfig.length, ← one.headers fifo named] at data
  refine ⟨headers, ?_⟩
  rw [RxConfig.dataOf, RxConfig.dataOf, ← headers]
  exact data

/--
The fast way to read the receive FIFOs does what the simple way does.

Both come to an end after few rounds, whatever the mask of receive FIFOs and the contents of the
RAM, and with either way to release a range.
-/
theorem bulkReadFifos_refines (config : RxConfig) (useBulkReleaseFifos : Bool) (ram : Nat → UInt8)
    (rxif : BitVec 32) (contained : Subset rxif config.split.rxFifoMask) (before : RxState) :
    ∃ simple fast,
      (∀ fuel > 32, readFifos config .good ram rxif fuel before = some (0, simple)) ∧
      (∀ fuel > 32, bulkReadFifos config useBulkReleaseFifos .good ram rxif fuel before =
        some (0, fast)) ∧
      SameObjects config before simple fast ∧
      ReadsAll config ram rxif before simple ∧ ReadsAll config ram rxif before fast := by
  -- Each loop is run on its own, and what both have fetched is compared at the end.
  have inMask := config.split.inMask
  have first := config.split.rxFirst
  have behind := config.behindTef
  -- Both loops start at the last receive FIFO with nothing done.
  obtain ⟨top, topEq⟩ : ∃ top, top = config.split.rxFifoStart + config.split.rxFifos - 1 :=
    ⟨_, rfl⟩
  have index : (config.split.rxFifoStart : Int) + config.split.rxFifos - 1 = (top : Int) := by
    omega
  have fresh : Fetched config ram before [] before :=
    ⟨Processed.nil config ram before, [], (List.append_nil _).symm, List.Perm.refl []⟩
  have none : ∀ fifo, fifo ∈ ([] : List Nat) ↔ rxif.getLsbD fifo = true ∧ top < fifo := by
    intro fifo
    refine ⟨fun member => absurd member List.not_mem_nil, fun both => ?_⟩
    have below := (RxConfig.rx_of_mask contained both.1).2
    omega
  have nothing : ∀ fifo, fifo ∈ ([] : List Nat) ↔
      rxif.getLsbD fifo = true ∧ rxif.getLsbD fifo = false := by
    intro fifo
    refine ⟨fun member => absurd member List.not_mem_nil, fun both => ?_⟩
    rw [both.1] at both
    cases both.2
  have masked : ∀ fifo : Nat, rxif.getLsbD fifo = true →
      rxif.getLsbD fifo = true ∧ (fifo : Int) ≤ (top : Int) := by
    intro fifo set
    have below := (RxConfig.rx_of_mask contained set).2
    exact ⟨set, by omega⟩
  obtain ⟨simple, simpleAll, simpleRan, simplePerm, simpleFetched⟩ :=
    readFifosLoop_fetches contained top [] before ⟨by omega, List.nodup_nil, none, fresh⟩
  obtain ⟨fast, fastAll, fastRan, fastPerm, fastFetched⟩ :=
    bulkReadFifosLoop_fetches contained useBulkReleaseFifos 33 top rxif [] before (by omega)
      ⟨by omega, by omega, masked, List.nodup_nil, nothing, fresh⟩
  have simpleReads := simpleFetched.readsAll simplePerm
  have fastReads := fastFetched.readsAll fastPerm
  refine ⟨simple, fast, fun fuel enough => ?_, fun fuel enough => ?_, simpleReads.same fastReads,
    simpleReads, fastReads⟩
  · rw [readFifos, index]
    exact simpleRan fuel (by omega)
  · rw [bulkReadFifos, index]
    exact fastRan fuel enough

/-- The payload of classic frames. -/
theorem classicConfig_payload : classicSplit.payloadSize = if false then 64 else 8 := by decide

/-- The receive FIFOs start behind the TEF. -/
theorem classicConfig_behindTef : 0 < classicSplit.rxFifoStart := by decide

/-- FIFOs of twenty bytes each, one behind the other. -/
theorem classicConfig_contiguous (fifo : Nat) (above : classicSplit.rxFifoStart ≤ fifo)
    (_ : fifo + 1 < classicSplit.rxFifoStart + classicSplit.rxFifos) :
    0x180 + 20 * (fifo + 1 - 1) =
      0x180 + 20 * (fifo - 1) + (sizeofRx + classicSplit.payloadSize) := by
  -- Each object takes 12 bytes and a payload of 8.
  have first : classicSplit.rxFifoStart = 1 := by decide
  have size : sizeofRx + classicSplit.payloadSize = 20 := by decide
  omega

/-- The receive FIFOs for classic frames, where the controller puts them behind the TEF. -/
def classicConfig : RxConfig where
  split := classicSplit
  table := .canFd
  fd := false
  payload := classicConfig_payload
  fifoAddress := fun fifo => 0x180 + 20 * (fifo - 1)
  behindTef := classicConfig_behindTef
  contiguous := classicConfig_contiguous

/-- Two runs of FIFOs with a gap between them, of which the lower one reaches the first FIFO. -/
theorem bulkReadFifos_refines_runs :
    let rxif : BitVec 32 := span 1 2 ||| span 5 3
    let before : RxState :=
      { queued := { fifoData := fun _ => 0, header := fun _ => ⟨0, 0, 0⟩, rxb := [] }
        sfr := classicSetup
        fifoUsage := fun _ => 0 }
    ∃ simple fast,
      (∀ fuel > 32, readFifos classicConfig .good (fun _ => 7) rxif fuel before =
        some (0, simple)) ∧
      (∀ fuel > 32, bulkReadFifos classicConfig true .good (fun _ => 7) rxif fuel before =
        some (0, fast)) ∧
      SameObjects classicConfig before simple fast ∧
      ReadsAll classicConfig (fun _ => 7) rxif before simple ∧
      ReadsAll classicConfig (fun _ => 7) rxif before fast :=
  bulkReadFifos_refines classicConfig true (fun _ => 7) _ (by decide) _

end OpenwrtMisc.Mcp25xxfd
