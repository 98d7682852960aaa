import OpenwrtMisc.SunxiCan.Frames

/-! The receive loop of the sunxi-can interrupt handler, which ends when the FIFO is empty. -/

namespace OpenwrtMisc.SunxiCan

open BitMask

/-- `SUN4I_STA_RBUF_RDY`. -/
def sun4iStaRbufRdy : BitVec 8 := bit 0

/-- A read of the status register, in which one bit tells of a frame in the FIFO. -/
def CanPort.readSta (port : CanPort) : BitVec 8 :=
  port.sta &&& ~~~sun4iStaRbufRdy ||| if port.fifo.isEmpty then 0 else sun4iStaRbufRdy

/--
The inner loop of `sun4i_can_interrupt`, for at most so many turns, from a status on.

A call of `alloc_can_skb` has an skb or not, which is told by the number of the call.
-/
def rxLoop (skbs : Nat → Bool) (isrc : BitVec 8) : Nat → BitVec 8 → CanPort → Option CanPort
  | 0, _, _ => none
  | turns + 1, status, port =>
    if status &&& sun4iStaRbufRdy ≠ 0 ∧ isrc &&& sun4iIntDataOr = 0 then
      let port := sun4iCanRx (skbs port.allocCalls) port
      rxLoop skbs isrc turns port.readSta port
    else some port

/--
What is expected of the loop.

The frames that an skb was allocated for are some of the queue, each one once and in order.
-/
structure Drained (before after : CanPort) : Prop where
  removed : after.fifo = []
  delivered : ∃ taken, taken.Sublist before.fifo ∧
    after.allocated = before.allocated ++ taken ∧
    after.delivered = before.delivered ++ taken.map rxFrame

/-- The number of skbs that so many calls of `alloc_can_skb` have, from a call on. -/
def successes (skbs : Nat → Bool) : Nat → Nat → Nat
  | _, 0 => 0
  | call, calls + 1 => (skbs call).toNat + successes skbs (call + 1) calls

/-- At some time there were as many skbs as there are frames in the queue. -/
def EnoughSkbs (skbs : Nat → Bool) (port : CanPort) : Prop :=
  ∃ calls, port.fifo.length ≤ successes skbs port.allocCalls calls

/-- The bit of the status register is set while there is a frame. -/
theorem CanPort.readSta_ready (port : CanPort) :
    port.readSta &&& sun4iStaRbufRdy ≠ 0 ↔ port.fifo ≠ [] := by
  -- The other bits of the register are masked, whatever they are.
  have masked : port.sta &&& ~~~sun4iStaRbufRdy &&& sun4iStaRbufRdy = 0 := by
    rw [BitVec.and_assoc, show ~~~sun4iStaRbufRdy &&& sun4iStaRbufRdy = 0 by decide]
    exact BitVec.and_zero
  unfold readSta
  rw [BitVec.and_comm, BitVec.and_or_distrib_left, BitVec.and_comm, masked]
  cases port.fifo with
  | nil => simp
  | cons frame rest =>
    simp only [List.isEmpty_cons, ne_eq, reduceCtorEq, not_false_eq_true, iff_true]
    decide

/-- The command to release the buffer removes the first frame. -/
theorem writeCmdreg_release (port : CanPort) :
    (writeCmdreg sun4iCmdReleaseRbuf port).fifo = port.fifo.tail := by
  -- The bit of the command is set.
  have release : sun4iRegCmdAddr = sun4iRegCmdAddr ∧
      (sun4iCmdReleaseRbuf.setWidth 32 &&& sun4iCmdReleaseRbuf.setWidth 32 : BitVec 32) ≠ 0 := by
    decide
  unfold writeCmdreg CanPort.writel
  rw [if_pos release]

/-- With an skb the first frame is delivered and removed. -/
theorem sun4iCanRx_skb {port : CanPort} {frame : Nat → BitVec 32} {rest : List (Nat → BitVec 32)}
    (queued : port.fifo = frame :: rest) :
    (sun4iCanRx true port).fifo = rest ∧
      (sun4iCanRx true port).allocCalls = port.allocCalls + 1 ∧
      (sun4iCanRx true port).allocated = port.allocated ++ [frame] ∧
      (sun4iCanRx true port).delivered = port.delivered ++ [rxFrame frame] := by
  -- Every register of the buffer is read from the first frame of the queue.
  have shown : (fun addr => port.readl addr) = frame := by
    funext addr
    rw [CanPort.readl, queued]
  refine ⟨?_, rfl, ?_, ?_⟩
  · exact (writeCmdreg_release _).trans (congrArg List.tail queued)
  · exact congrArg (fun buf => port.allocated ++ [buf]) shown
  · exact congrArg (fun buf => port.delivered ++ [rxFrame buf]) shown

/-- Without an skb nothing happens, and the frame stays. -/
theorem sun4iCanRx_none (port : CanPort) :
    sun4iCanRx false port = { port with allocCalls := port.allocCalls + 1 } := rfl

section Loop

variable {skbs : Nat → Bool} {isrc : BitVec 8}

/-- A turn of the loop, while frames are left and no overrun was told. -/
theorem rxLoop_turn {port : CanPort} (left : port.fifo ≠ [])
    (clear : isrc &&& sun4iIntDataOr = 0) (turns : Nat) :
    rxLoop skbs isrc (turns + 1) port.readSta port =
      rxLoop skbs isrc turns (sun4iCanRx (skbs port.allocCalls) port).readSta
        (sun4iCanRx (skbs port.allocCalls) port) :=
  if_pos ⟨port.readSta_ready.mpr left, clear⟩

/-- The loop ends when no frame is left. -/
theorem rxLoop_empty {port : CanPort} (empty : port.fifo = []) (turns : Nat) :
    rxLoop skbs isrc (turns + 1) port.readSta port = some port :=
  if_neg fun both => port.readSta_ready.mp both.1 empty

/-- The loop is not entered after an overrun. -/
theorem rxLoop_overrun {port : CanPort} (overrun : isrc &&& sun4iIntDataOr ≠ 0) (turns : Nat) :
    rxLoop skbs isrc (turns + 1) port.readSta port = some port :=
  if_neg fun both => overrun both.2

/-- With enough skbs the loop ends. -/
theorem rxLoop_ends (clear : isrc &&& sun4iIntDataOr = 0) {calls : Nat} {port : CanPort}
    (enough : port.fifo.length ≤ successes skbs port.allocCalls calls) :
    ∃ turns after, rxLoop skbs isrc turns port.readSta port = some after := by
  -- The induction is on the calls that are left, from any state of the queue.
  induction calls generalizing port with
  | zero => exact ⟨1, port, rxLoop_empty (List.eq_nil_of_length_eq_zero (Nat.le_zero.mp enough)) 0⟩
  | succ calls ih =>
    cases queued : port.fifo with
    | nil => exact ⟨1, port, rxLoop_empty queued 0⟩
    | cons frame rest =>
      have left : port.fifo ≠ [] := by
        rw [queued]
        exact List.cons_ne_nil frame rest
      rw [queued, List.length_cons, successes] at enough
      -- A turn uses up one call, and removes a frame when the call has an skb.
      have next : (sun4iCanRx (skbs port.allocCalls) port).fifo.length ≤
          successes skbs (sun4iCanRx (skbs port.allocCalls) port).allocCalls calls := by
        cases skb : skbs port.allocCalls with
        | true =>
          obtain ⟨removed, call, _⟩ := sun4iCanRx_skb queued
          rw [skb, Bool.toNat_true] at enough
          rw [removed, call]
          omega
        | false =>
          rw [skb, Bool.toNat_false] at enough
          rw [sun4iCanRx_none]
          show port.fifo.length ≤ successes skbs (port.allocCalls + 1) calls
          rw [queued, List.length_cons]
          omega
      obtain ⟨turns, after, ran⟩ := ih next
      exact ⟨turns + 1, after, (rxLoop_turn left clear turns).trans ran⟩

/-- When the loop ends, every frame of the queue was delivered, and each one took an skb. -/
theorem rxLoop_delivered (clear : isrc &&& sun4iIntDataOr = 0) {turns : Nat} {port after : CanPort}
    (ran : rxLoop skbs isrc turns port.readSta port = some after) :
    after.fifo = [] ∧ after.allocated = port.allocated ++ port.fifo ∧
      after.delivered = port.delivered ++ port.fifo.map rxFrame ∧ EnoughSkbs skbs port := by
  -- The induction is on the turns, and the rest of the queue is what the later turns deliver.
  induction turns generalizing port with
  | zero => exact absurd ran nofun
  | succ turns ih =>
    cases queued : port.fifo with
    | nil =>
      rw [rxLoop_empty queued, Option.some.injEq] at ran
      subst ran
      have none : port.fifo.length ≤ successes skbs port.allocCalls 0 := by
        rw [queued]
        exact Nat.le_refl 0
      exact ⟨queued, (List.append_nil _).symm, (List.append_nil _).symm, 0, none⟩
    | cons frame rest =>
      have left : port.fifo ≠ [] := by
        rw [queued]
        exact List.cons_ne_nil frame rest
      rw [rxLoop_turn left clear] at ran
      obtain ⟨removed, allocated, delivered, calls, enough⟩ := ih ran
      cases skb : skbs port.allocCalls with
      | true =>
        obtain ⟨fifo, call, taken, passed⟩ := sun4iCanRx_skb queued
        rw [skb, fifo, taken, List.append_assoc] at allocated
        rw [skb, fifo, passed, List.append_assoc] at delivered
        rw [skb, fifo, call] at enough
        refine ⟨removed, allocated, delivered, calls + 1, ?_⟩
        rw [queued, successes, skb, Bool.toNat_true, List.length_cons]
        omega
      | false =>
        rw [skb, sun4iCanRx_none] at allocated delivered enough
        refine ⟨removed, queued ▸ allocated, queued ▸ delivered, calls + 1, ?_⟩
        rw [successes, skb, Bool.toNat_false, Nat.zero_add]
        exact enough

end Loop

/--
The loop ends with an empty queue and its frames delivered just when there is no overrun and
enough skbs, or no frame.

The queue, the pattern of the allocations and the flags of the interrupt are any.
-/
theorem rxLoop_drained_iff (skbs : Nat → Bool) (isrc : BitVec 8) (port : CanPort) :
    (∃ turns after, rxLoop skbs isrc turns port.readSta port = some after ∧ Drained port after) ↔
      port.fifo = [] ∨ isrc &&& sun4iIntDataOr = 0 ∧ EnoughSkbs skbs port := by
  -- With an overrun the loop never delivers, and without one it ends when the queue or the skbs
  -- do.
  constructor
  · intro given
    obtain ⟨turns, after, ran, drained⟩ := given
    by_cases clear : isrc &&& sun4iIntDataOr = 0
    · exact .inr ⟨clear, (rxLoop_delivered clear ran).2.2.2⟩
    · -- After an overrun the queue stays as it is, so it was empty before.
      cases turns with
      | zero => exact absurd ran nofun
      | succ turns =>
        rw [rxLoop_overrun clear, Option.some.injEq] at ran
        exact .inl (ran ▸ drained.removed)
  · intro given
    rcases given with empty | ⟨clear, calls, enough⟩
    · refine ⟨1, port, rxLoop_empty empty 0, empty, [], List.nil_sublist _, ?_, ?_⟩
      · exact (List.append_nil _).symm
      · exact (List.append_nil _).symm
    · obtain ⟨turns, after, ran⟩ := rxLoop_ends clear enough
      obtain ⟨removed, allocated, delivered, _⟩ := rxLoop_delivered clear ran
      exact ⟨turns, after, ran, removed, port.fifo, List.Sublist.refl _, allocated, delivered⟩

/-- Without any skb the loop never ends, with one frame in the queue. -/
theorem rxLoop_without_skbs :
    ¬ ∀ (skbs : Nat → Bool) (isrc : BitVec 8) (port : CanPort), isrc &&& sun4iIntDataOr = 0 →
      ∃ turns after, rxLoop skbs isrc turns port.readSta port = some after ∧
        Drained port after := by
  -- The loop is asked for one frame, with no skb for any turn.
  intro claim
  obtain ⟨turns, after, ran, _⟩ :=
    claim (fun _ => false) 1 { CanPort.idle with fifo := [fun _ => 0] }
    (by decide)
  obtain ⟨calls, enough⟩ := (rxLoop_delivered (by decide) ran).2.2.2
  -- No call has an skb, so not even one frame is covered.
  have none : ∀ calls call, successes (fun _ => false) call calls = 0 := by
    intro calls
    induction calls with
    | zero => exact fun _ => rfl
    | succ calls ih => exact fun call => (Nat.zero_add _).trans (ih (call + 1))
  rw [none] at enough
  exact absurd enough (by decide)

end OpenwrtMisc.SunxiCan
