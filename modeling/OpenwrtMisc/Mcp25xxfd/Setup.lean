import OpenwrtMisc.Mcp25xxfd.TxInvariant

/-! How `mcp25xxfd_setup_fifo` splits the FIFOs, and the masks that it collects for them. -/

namespace OpenwrtMisc.Mcp25xxfd

open BitMask

/-- The two values that `net->mtu` may have, from the sizes of a classic and of an FD frame. -/
def canMtu : Nat := 16
def canFdMtu : Nat := 72

/-- The sizes of the headers of `struct mcp25xxfd_obj_tx` and `struct mcp25xxfd_obj_rx`. -/
def sizeofTx : Nat := 8
def sizeofRx : Nat := 12

/-- `MCP25XXFD_BUFFER_TXRX_SIZE`, the size of the controller's FIFO RAM. -/
def bufferTxrxSize : Nat := 2048

/-- The split of the FIFOs, of which FIFO 0 is the TEF and the receive FIFOs come first. -/
structure FifoSplit where
  payloadSize : Nat
  txFifos : Nat
  rxFifos : Nat
  tefFifos : Nat
  rxFifoStart : Nat
  txFifoStart : Nat
  nonempty : 0 < txFifos
  rxFirst : txFifoStart = rxFifoStart + rxFifos
  inMask : txFifoStart + txFifos ≤ 32
  tefHolds : txFifos ≤ tefFifos

/-- The layout that the transmit path works on, once the controller has told where its TEF is. -/
def FifoSplit.layout (split : FifoSplit) (tefua : Nat) : TxLayout where
  txFifoStart := split.txFifoStart
  txFifos := split.txFifos
  tefFifos := split.tefFifos
  tefAddressStart := tefua
  nonempty := split.nonempty
  inMask := split.inMask
  tefHolds := split.tefHolds

/-- The bits of the transmit FIFOs, as the setup loop is to collect them. -/
def FifoSplit.txFifoMask (split : FifoSplit) : BitVec 32 := span split.txFifoStart split.txFifos

/-- The bits of the receive FIFOs, as the setup loop is to collect them. -/
def FifoSplit.rxFifoMask (split : FifoSplit) : BitVec 32 := span split.rxFifoStart split.rxFifos

/-- The payload size for an MTU, `none` where the switch returns `-EINVAL`. -/
def payloadSize (mtu : Nat) : Option Nat :=
  if mtu = canMtu then some 8 else if mtu = canFdMtu then some 64 else none

/-- The number of receive FIFOs that the RAM and the 31 FIFOs leave room for. -/
def rxFifoCount (txFifos payload : Nat) : Nat :=
  let availableMemory := bufferTxrxSize - txFifos * (sizeofTef + sizeofTx + payload)
  min (availableMemory / (sizeofRx + payload)) (31 - txFifos)

/-- The number of TEF entries: one for each transmit FIFO, and as many as still fit, up to 32. -/
def tefFifoCount (txFifos payload : Nat) : Nat :=
  let availableMemory := bufferTxrxSize - txFifos * (sizeofTef + sizeofTx + payload) -
    rxFifoCount txFifos payload * (sizeofRx + payload)
  let fifo := availableMemory / sizeofTef
  if fifo > 0 then min (txFifos + fifo) 32 else txFifos

/-- There are never fewer TEF entries than transmit FIFOs. -/
theorem le_tefFifoCount {txFifos : Nat} (bounded : txFifos ≤ 30) (payload : Nat) :
    txFifos ≤ tefFifoCount txFifos payload := by
  -- More entries only come on top, and the cap of 32 is above the transmit FIFOs.
  simp only [tefFifoCount]
  split <;> omega

/-- There is a transmit FIFO whatever the module parameter says. -/
theorem txFifos_pos (txFifosParam : Nat) : 0 < if txFifosParam ≠ 0 then txFifosParam else 7 := by
  split <;> omega

/-- The TEF, the receive FIFOs and the transmit FIFOs are at most 32. -/
theorem fifos_inMask {txFifos : Nat} (bounded : txFifos ≤ 30) (payload : Nat) :
    1 + rxFifoCount txFifos payload + txFifos ≤ 32 := by
  -- The receive FIFOs get at most what the transmit FIFOs leave of 31.
  have room : rxFifoCount txFifos payload ≤ 31 - txFifos := Nat.min_le_right _ _
  omega

/-- The split for a module parameter `tx_fifos` and an MTU, `none` where it fails with `-EINVAL`. -/
def splitFifos (txFifosParam mtu : Nat) : Option FifoSplit :=
  match payloadSize mtu with
  | none => none
  | some payload =>
    if range : (if txFifosParam ≠ 0 then txFifosParam else 7) ≤ 30 then
      let txFifos := if txFifosParam ≠ 0 then txFifosParam else 7
      -- One receive FIFO has to fit into the RAM as well.
      if txFifos * (sizeofTef + sizeofTx + payload) + (sizeofRx + payload) > bufferTxrxSize then
        none
      else
        some
          { payloadSize := payload
            txFifos := txFifos
            rxFifos := rxFifoCount txFifos payload
            tefFifos := tefFifoCount txFifos payload
            rxFifoStart := 1
            txFifoStart := 1 + rxFifoCount txFifos payload
            nonempty := txFifos_pos txFifosParam
            rxFirst := rfl
            inMask := fifos_inMask range payload
            tefHolds := le_tefFifoCount range payload }
    else none

/-- Classic frames leave 24 receive FIFOs beside the 7 transmit FIFOs, and FD frames leave 19. -/
example : (splitFifos 0 canMtu).map (fun split => (split.rxFifos, split.txFifoStart)) =
    some (24, 25) ∧
    (splitFifos 0 canFdMtu).map (fun split => (split.rxFifos, split.txFifoStart)) =
      some (19, 20) := by
  decide

/-- The bits of the mask of all receive FIFOs. -/
theorem FifoSplit.getLsbD_rxFifoMask (split : FifoSplit) (fifo : Nat) :
    split.rxFifoMask.getLsbD fifo = true ↔
      split.rxFifoStart ≤ fifo ∧ fifo < split.rxFifoStart + split.rxFifos := by
  -- The mask is the span of the receive FIFOs.
  have inMask := split.inMask
  have rxFirst := split.rxFirst
  rw [FifoSplit.rxFifoMask, getLsbD_span]
  omega

/-- Which transfers of a call of `mcp25xxfd_open` succeed. -/
structure OpenOutcome where
  /-- Everything from `open_candev` to the write of TEFCON. -/
  before : Bool
  /-- The write of FIFOCON for each transmit FIFO. -/
  txFifo : Nat → Bool
  /-- The writes of FIFOCON and FLTCON for each receive FIFO. -/
  rxFifo : Nat → Bool
  /-- Everything after these loops, up to the interrupts of the controller. -/
  after : Bool

/-- A loop that sets FIFOs up and collects their bits, up to the first failing transfer. -/
def collectFifos (written : Nat → Bool) : List Nat → BitVec 32 → BitVec 32 × Bool
  | [], mask => (mask, true)
  | fifo :: rest, mask =>
    if written fifo then collectFifos written rest (mask ||| bit fifo) else (mask, false)

/-- The FIFOs in the order in which the two loops visit them. -/
def FifoSplit.txOrder (split : FifoSplit) : List Nat := List.range' split.txFifoStart split.txFifos
def FifoSplit.rxOrder (split : FifoSplit) : List Nat :=
  (List.range' split.rxFifoStart split.rxFifos).reverse

/-- A loop keeps the bits it finds and adds none but those of its FIFOs. -/
theorem collectFifos_bits (written : Nat → Bool) :
    ∀ fifos mask, (∀ fifo ∈ fifos, fifo < 32) → ∀ fifo,
      (mask.getLsbD fifo = true → (collectFifos written fifos mask).1.getLsbD fifo = true) ∧
      ((collectFifos written fifos mask).1.getLsbD fifo = true →
        mask.getLsbD fifo = true ∨ fifo ∈ fifos) := by
  -- The induction follows the loop, with the mask collected so far.
  intro fifos
  induction fifos with
  | nil => intro mask _ fifo; simp [collectFifos]
  | cons head rest ih =>
    intro mask inside fifo
    simp only [collectFifos]
    by_cases ok : written head = true
    · rw [if_pos ok]
      have set := getLsbD_set mask (inside head List.mem_cons_self) fifo
      have step := ih (mask ||| bit head) (fun other member => inside other (.tail _ member)) fifo
      simp only [set, Bool.or_eq_true, decide_eq_true_eq] at step
      refine ⟨fun before => step.1 (Or.inl before), fun after => ?_⟩
      rcases step.2 after with (before | here) | later
      · exact Or.inl before
      · exact Or.inr (here ▸ List.mem_cons_self)
      · exact Or.inr (.tail _ later)
    · rw [if_neg ok]
      exact ⟨id, Or.inl⟩

/-- A loop whose transfers all succeed adds the bits of all its FIFOs. -/
theorem collectFifos_done {written : Nat → Bool} :
    ∀ fifos mask, (collectFifos written fifos mask).2 = true → (∀ fifo ∈ fifos, fifo < 32) →
      ∀ fifo ∈ fifos, (collectFifos written fifos mask).1.getLsbD fifo = true := by
  -- The induction is on the FIFOs, each of which has its bit set once its transfer succeeded.
  intro fifos
  induction fifos with
  | nil => intro mask _ _ fifo member; cases member
  | cons head rest ih =>
    intro mask done inside fifo member
    simp only [collectFifos] at done ⊢
    by_cases ok : written head = true
    · rw [if_pos ok] at done ⊢
      have others : ∀ other ∈ rest, other < 32 := fun other later => inside other (.tail _ later)
      rcases List.mem_cons.mp member with same | later
      · -- The bit of the head is set before the rest of the loop, which keeps it.
        refine (collectFifos_bits written rest _ others fifo).1 ?_
        rw [getLsbD_set _ (inside head List.mem_cons_self)]
        simp [same]
      · exact ih _ done others fifo later
    · rw [if_neg ok] at done
      cases done

end OpenwrtMisc.Mcp25xxfd
