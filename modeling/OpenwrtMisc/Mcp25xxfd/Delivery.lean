import Mathlib.Algebra.Order.Ring.Nat
import Mathlib.Data.List.Pairwise
import OpenwrtMisc.Kernel.EchoTable
import OpenwrtMisc.Kernel.Sort
import OpenwrtMisc.Mcp25xxfd.Object

/-! The delivery of a pass: the queued objects are sorted by timestamp and handled in turn. -/

namespace OpenwrtMisc.Mcp25xxfd

open BitMask

/-- The frame in an skb that is passed to `netif_rx_ni`. -/
structure RxFrame where
  canId : BitVec 32
  /-- `CANFD_BRS` and `CANFD_ESI`, which a classic frame has no room for. -/
  brs : Bool
  esi : Bool
  /-- `len` of a CAN FD frame, `can_dlc` of a classic one. -/
  len : Nat
  /-- The bytes that are copied into the frame. -/
  data : List UInt8
  deriving DecidableEq, Repr

/-- What became of an object. -/
inductive Handled where
  /-- Its echo skb was taken back, and it was counted as transmitted. -/
  | transmitted (obj : Nat)
  | delivered (obj : Nat) (frame : RxFrame)
  /-- No skb could be allocated. -/
  | dropped (obj : Nat)
  deriving DecidableEq, Repr

/-- The object that was handled. -/
def Handled.obj : Handled → Nat
  | .transmitted obj => obj
  | .delivered obj _ => obj
  | .dropped obj => obj

/--
The state that the delivery reads and writes: the queued objects, the echo slots, the statistics.

`handled` only records what happened.
-/
structure Delivery (echo : EchoTable Nat) where
  queued : Queued
  slots : echo.Slots
  txPackets : Nat
  txBytes : Nat
  rxPackets : Nat
  rxBytes : Nat
  rxDropped : Nat
  txFdCount : Nat
  txBrsCount : Nat
  txDlcUsage : Nat → Nat
  rxFdCount : Nat
  rxBrsCount : Nat
  rxDlcUsage : Nat → Nat
  /-- The objects that were handled, the first one first. -/
  handled : List Handled

variable {echo : EchoTable Nat}

/-- Counts one more under an index. -/
def countAt (index : Nat) (usage : Nat → Nat) : Nat → Nat :=
  Function.update usage index (usage index + 1)

/-- `mcp25xxfd_mcpid_to_canid`. -/
def mcpidToCanid (mcpid mcpflags : BitVec 32) : BitVec 32 :=
  let sid := mcpid &&& span 0 11
  let eid := (mcpid &&& span 11 18) >>> 11
  let id := if mcpflags &&& canObjFlagsIde ≠ 0 then eid ||| sid <<< 18 ||| bit 31 else sid
  if mcpflags &&& canObjFlagsRtr ≠ 0 then id ||| bit 30 else id

/-- `mcp25xxfd_process_queued_tef`, which does not fail. -/
def processQueuedTef (dlcs : DlcTable) (obj : Nat) (state : Delivery echo) : Delivery echo :=
  let header := state.queued.header obj
  { state with
    txPackets := state.txPackets + 1
    txBytes := state.txBytes + dlcs.canDlc2len header.dlc
    txFdCount := if header.has canObjFlagsFdf then state.txFdCount + 1 else state.txFdCount
    txBrsCount := if header.has canObjFlagsBrs then state.txBrsCount + 1 else state.txBrsCount
    txDlcUsage := countAt header.dlc state.txDlcUsage
    slots := echo.canGetEchoSkb header.seq state.slots
    handled := state.handled ++ [.transmitted obj] }

/-- The error that a failed allocation is reported with. -/
def eNOMEM : Int := 12

/-- The failed allocation of an skb, which both kinds of frames count as dropped. -/
def rxDropped (obj : Nat) (state : Delivery echo) : Delivery echo :=
  { state with
    rxDropped := state.rxDropped + 1
    handled := state.handled ++ [.dropped obj] }

/-- `mcp25xxfd_can_transform_rx_fd`; `skb` tells whether the allocation succeeds. -/
def canTransformRxFd (dlcs : DlcTable) (skb : Bool) (obj : Nat) (state : Delivery echo) :
    Int × Delivery echo :=
  if skb then
    let header := state.queued.header obj
    let len := dlcs.canDlc2len header.dlc
    let frame : RxFrame :=
      { canId := mcpidToCanid header.id header.flags
        brs := header.has canObjFlagsBrs
        esi := header.has canObjFlagsEsi
        len := len
        data := state.queued.data obj len }
    (0, { state with
      rxFdCount := state.rxFdCount + 1
      rxPackets := state.rxPackets + 1
      rxBytes := state.rxBytes + len
      rxBrsCount := if header.has canObjFlagsBrs then state.rxBrsCount + 1 else state.rxBrsCount
      rxDlcUsage := countAt header.dlc state.rxDlcUsage
      handled := state.handled ++ [.delivered obj frame] })
  else (-eNOMEM, rxDropped obj state)

/-- `mcp25xxfd_can_transform_rx_normal`, which copies as many bytes as a CAN FD frame has. -/
def canTransformRxNormal (dlcs : DlcTable) (skb : Bool) (obj : Nat) (state : Delivery echo) :
    Int × Delivery echo :=
  if skb then
    let header := state.queued.header obj
    let len := dlcs.canDlc2len header.dlc
    let frame : RxFrame :=
      { canId := mcpidToCanid header.id header.flags
        brs := false
        esi := false
        len := header.dlc
        data := state.queued.data obj len }
    (0, { state with
      rxPackets := state.rxPackets + 1
      rxBytes := state.rxBytes + len
      rxDlcUsage := countAt header.dlc state.rxDlcUsage
      handled := state.handled ++ [.delivered obj frame] })
  else (-eNOMEM, rxDropped obj state)

/-- `mcp25xxfd_process_queued_rx`. -/
def processQueuedRx (dlcs : DlcTable) (skb : Bool) (obj : Nat) (state : Delivery echo) :
    Int × Delivery echo :=
  if (state.queued.header obj).has canObjFlagsFdf then canTransformRxFd dlcs skb obj state
  else canTransformRxNormal dlcs skb obj state

/-- An object of the list was read from the TEF. -/
def Queued.isTef (queued : Queued) (obj : Nat) : Bool :=
  (queued.header obj).has canObjFlagsCustomIstef

/-- The body of the loop of `mcp25xxfd_process_queued_fifos`. -/
def processObj (dlcs : DlcTable) (skb : Bool) (obj : Nat) (state : Delivery echo) :
    Int × Delivery echo :=
  if state.queued.isTef obj then (0, processQueuedTef dlcs obj state)
  else processQueuedRx dlcs skb obj state

/-- The loop from turn `i` on; `skb` tells whether the allocation of a turn succeeds. -/
def processLoop (dlcs : DlcTable) (skb : Nat → Bool) :
    Nat → List Nat → Delivery echo → Int × Delivery echo
  | _, [], state => (0, { state with queued := clearQueuedFifos state.queued })
  | i, obj :: rest, state =>
    let done := processObj dlcs (skb i) obj state
    if done.1 ≠ 0 then done else processLoop dlcs skb (i + 1) rest done.2

/-- `mcp25xxfd_compare_obj_ts`, on the timestamps as signed numbers. -/
def compareObjTs (queued : Queued) (a b : Nat) : Int :=
  let ats := (queued.header a).ts
  let bts := (queued.header b).ts
  if ats.slt bts then -1 else if bts.slt ats then 1 else 0

/-- The list of queued objects after the call of `sort`. -/
def sortedRxb (kernel : KernelSort Nat) (queued : Queued) : List Nat :=
  kernel.sort (compareObjTs queued) queued.rxb

/-- `mcp25xxfd_process_queued_fifos`. -/
def processQueuedFifos (kernel : KernelSort Nat) (dlcs : DlcTable) (skb : Nat → Bool)
    (state : Delivery echo) : Int × Delivery echo :=
  processLoop dlcs skb 0 (sortedRxb kernel state.queued)
    { state with queued := { state.queued with rxb := sortedRxb kernel state.queued } }

/-- An entry tells of a TEF object, of a delivered frame, of a dropped one. -/
def Handled.isTransmitted : Handled → Bool
  | .transmitted _ => true
  | _ => false

def Handled.isDelivered : Handled → Bool
  | .delivered _ _ => true
  | _ => false

def Handled.isDropped : Handled → Bool
  | .dropped _ => true
  | _ => false

/-- What a call leaves that has handled its objects as these entries tell. -/
structure Handles (before after : Delivery echo) (entries : List Handled) : Prop where
  handled : after.handled = before.handled ++ entries
  /-- The TEF objects are processed as transmitted, and they alone. -/
  kind : ∀ entry ∈ entries, entry.isTransmitted = before.queued.isTef entry.obj
  /-- The echo slots of the TEF objects are emptied, and they alone. -/
  slots : ∀ i, echo.slot after.slots i =
    if entries.any fun entry =>
        entry.isTransmitted && (before.queued.header entry.obj).seq == i then none
    else echo.slot before.slots i
  txPackets : after.txPackets = before.txPackets + entries.countP Handled.isTransmitted
  rxPackets : after.rxPackets = before.rxPackets + entries.countP Handled.isDelivered
  rxDropped : after.rxDropped = before.rxDropped + entries.countP Handled.isDropped

/-- What is expected of a call: each object of the list is handled once. -/
def LosesNothing (before after : Delivery echo) : Prop :=
  ∃ entries, (entries.map Handled.obj).Perm before.queued.rxb ∧ Handles before after entries

/-- The objects that a call has handled, in the order in which it did. -/
def handledObjs (before after : Delivery echo) : List Nat :=
  (after.handled.drop before.handled.length).map Handled.obj

/-- A call that handles its objects one after the other handles them all. -/
theorem Handles.append {first second third : Delivery echo} {earlier later : List Handled}
    (begun : Handles first second earlier) (same : second.queued.header = first.queued.header)
    (ended : Handles second third later) : Handles first third (earlier ++ later) where
  handled := by rw [ended.handled, begun.handled, List.append_assoc]
  kind := by
    intro entry member
    rcases List.mem_append.mp member with early | late
    · exact begun.kind entry early
    · rw [ended.kind entry late, Queued.isTef, Queued.isTef, same]
  slots := by
    intro i
    rw [ended.slots, begun.slots, same, List.any_append]
    -- A slot is empty in the end when either part has emptied it.
    by_cases late : later.any fun entry =>
        entry.isTransmitted && (first.queued.header entry.obj).seq == i
    · rw [if_pos late, late, Bool.or_true, if_pos rfl]
    · rw [if_neg late, Bool.eq_false_of_not_eq_true late, Bool.or_false]
  txPackets := by rw [ended.txPackets, begun.txPackets, List.countP_append, Nat.add_assoc]
  rxPackets := by rw [ended.rxPackets, begun.rxPackets, List.countP_append, Nat.add_assoc]
  rxDropped := by rw [ended.rxDropped, begun.rxDropped, List.countP_append, Nat.add_assoc]

/-- What a call that does not fail does with one object, or a failed one with its last. -/
theorem processObj_handles (dlcs : DlcTable) (skb : Bool) (obj : Nat) (state : Delivery echo) :
    ∃ entry, entry.obj = obj ∧ Handles state (processObj dlcs skb obj state).2 [entry] := by
  -- The object is one of the TEF, or a received one with or without an skb.
  by_cases tef : state.queued.isTef obj = true
  · -- The echo slot named by SEQ is the one that is emptied.
    refine ⟨.transmitted obj, rfl, ?_⟩
    rw [processObj, if_pos tef]
    refine ⟨rfl, ?_, ?_, rfl, rfl, rfl⟩
    · intro entry member
      rw [List.mem_singleton] at member
      rw [member]
      exact tef.symm
    · intro i
      show echo.slot (echo.canGetEchoSkb _ state.slots) i = _
      rw [echo.slot_get, List.any_cons, List.any_nil, Bool.or_false]
      simp only [Handled.isTransmitted, Handled.obj, Bool.true_and, beq_iff_eq]
      rw [if_congr (eq_comm (a := i)) rfl rfl]
  · rw [processObj, if_neg tef, processQueuedRx]
    -- Neither kind of frame touches the slots, and both count in the same way.
    have rest : ∀ entry : Handled, entry.obj = obj → entry.isTransmitted = false →
        ∀ next : Delivery echo, next.handled = state.handled ++ [entry] →
        next.slots = state.slots → next.txPackets = state.txPackets →
        next.rxPackets = state.rxPackets + [entry].countP Handled.isDelivered →
        next.rxDropped = state.rxDropped + [entry].countP Handled.isDropped →
        Handles state next [entry] := by
      intro entry same other next handled slots tx rx dropped
      refine ⟨handled, ?_, ?_, ?_, rx, dropped⟩
      · intro listed member
        rw [List.mem_singleton] at member
        rw [member, other, same]
        exact (Bool.eq_false_of_not_eq_true tef).symm
      · intro i
        rw [List.any_cons, List.any_nil, other, slots]
        rfl
      · rw [tx, List.countP_cons, other]
        rfl
    cases skb with
    | true =>
      split
      · exact ⟨.delivered obj _, rfl, rest _ rfl rfl _ rfl rfl rfl rfl rfl⟩
      · exact ⟨.delivered obj _, rfl, rest _ rfl rfl _ rfl rfl rfl rfl rfl⟩
    | false =>
      split
      · exact ⟨.dropped obj, rfl, rest _ rfl rfl _ rfl rfl rfl rfl rfl⟩
      · exact ⟨.dropped obj, rfl, rest _ rfl rfl _ rfl rfl rfl rfl rfl⟩

/-- One object leaves the queued objects as they are. -/
theorem processObj_queued (dlcs : DlcTable) (skb : Bool) (obj : Nat) (state : Delivery echo) :
    (processObj dlcs skb obj state).2.queued = state.queued := by
  -- The object is one of the TEF, or a received one that is submitted.
  rw [processObj, processQueuedRx]
  split
  · rfl
  · -- Neither kind of frame writes to the list or to the RAM.
    cases skb <;> split <;> rfl

/-- The loop goes on after a TEF object, and after a received one that found its skb. -/
theorem processObj_ret (dlcs : DlcTable) (skb : Bool) (obj : Nat) (state : Delivery echo) :
    (processObj dlcs skb obj state).1 = 0 ↔ state.queued.isTef obj = true ∨ skb = true := by
  -- The object is one of the TEF, which never fails, or a received one.
  rw [processObj]
  by_cases tef : state.queued.isTef obj = true
  · simp [tef]
  · -- A received object fails exactly when its allocation does.
    rw [if_neg tef, processQueuedRx]
    cases skb <;> split <;> simp [tef, canTransformRxFd, canTransformRxNormal, eNOMEM]

/-- The objects that the loop reaches: none after the first one that finds no skb. -/
def reached (queued : Queued) (skb : Nat → Bool) : Nat → List Nat → List Nat
  | _, [] => []
  | i, obj :: rest =>
    if queued.isTef obj ∨ skb i then obj :: reached queued skb (i + 1) rest else [obj]

/-- Only the headers decide what the loop reaches. -/
theorem reached_congr {first second : Queued} (same : first.header = second.header)
    (skb : Nat → Bool) (i : Nat) (objs : List Nat) :
    reached first skb i objs = reached second skb i objs := by
  -- The induction is on the objects.
  induction objs generalizing i with
  | nil => rfl
  | cons obj rest ih => rw [reached, reached, ih, Queued.isTef, Queued.isTef, same]

/-- The loop reaches the objects from the first one on. -/
theorem reached_isPrefix (queued : Queued) (skb : Nat → Bool) (objs : List Nat) : ∀ i,
    reached queued skb i objs <+: objs := by
  -- The induction is on the objects, at each of which the loop may end.
  induction objs with
  | nil => exact fun _ => List.prefix_refl _
  | cons obj rest ih =>
    intro i
    rw [reached]
    split
    · exact (List.cons_prefix_cons).mpr ⟨rfl, ih (i + 1)⟩
    · exact ⟨rest, rfl⟩

/-- The loop reaches all objects when every allocation succeeds. -/
theorem reached_all (queued : Queued) (i : Nat) (objs : List Nat) :
    reached queued (fun _ => true) i objs = objs := by
  -- The induction is on the objects.
  induction objs generalizing i with
  | nil => rfl
  | cons obj rest ih => rw [reached, if_pos (Or.inr rfl), ih]

/-- The loop handles the objects that it reaches, in the order of the list. -/
theorem processLoop_handles (dlcs : DlcTable) (skb : Nat → Bool) (objs : List Nat) :
    ∀ (i : Nat) (state : Delivery echo), ∃ entries,
      entries.map Handled.obj = reached state.queued skb i objs ∧
      Handles state (processLoop dlcs skb i objs state).2 entries := by
  -- The induction is on the objects that are left, with the turn going up.
  induction objs with
  | nil =>
    intro i state
    refine ⟨[], rfl, ?_, ?_, ?_, rfl, rfl, rfl⟩
    · exact (List.append_nil _).symm
    · exact fun _ none => absurd none List.not_mem_nil
    · exact fun _ => rfl
  | cons obj rest ih =>
    intro i state
    obtain ⟨entry, same, handles⟩ := processObj_handles dlcs (skb i) obj state
    have queued := processObj_queued dlcs (skb i) obj state
    have ret := processObj_ret dlcs (skb i) obj state
    rw [processLoop, reached]
    -- A turn that goes on adds its entry in front of those of the rest.
    by_cases goes : state.queued.isTef obj = true ∨ skb i = true
    · simp only [if_pos goes, ret.mpr goes, ne_eq, not_true_eq_false, if_false]
      obtain ⟨entries, objs, later⟩ := ih (i + 1) (processObj dlcs (skb i) obj state).2
      refine ⟨entry :: entries, ?_, ?_⟩
      · rw [List.map_cons, same, objs, queued]
      · exact handles.append (by rw [queued]) later
    · -- The turn that fails is the last one, and it has counted its frame as dropped.
      have failed : (processObj dlcs (skb i) obj state).1 ≠ 0 := fun zero => goes (ret.mp zero)
      rw [if_neg goes, if_pos failed]
      exact ⟨[entry], by rw [List.map_singleton, same], handles⟩

/-- The loop reaches all objects when only the last one may find no skb. -/
theorem length_reached_iff (queued : Queued) (skb : Nat → Bool) (objs : List Nat) : ∀ i,
    (reached queued skb i objs).length = objs.length ↔
      ∀ turn obj, objs[turn]? = some obj → queued.isTef obj = false → skb (i + turn) = false →
        turn + 1 = objs.length := by
  -- The induction is on the objects, with the turn counted up.
  induction objs with
  | nil =>
    intro i
    constructor
    · intro _ turn obj found
      exact absurd found (by simp)
    · exact fun _ => rfl
  | cons head rest ih =>
    intro i
    rw [reached]
    by_cases goes : queued.isTef head = true ∨ skb i = true
    · -- The turns of the rest are one later in the whole list.
      rw [if_pos goes, List.length_cons, List.length_cons, Nat.add_right_cancel_iff, ih (i + 1)]
      have shifted : ∀ turn, i + 1 + turn = i + (turn + 1) := fun turn => by omega
      constructor
      · intro later turn obj found rx fails
        -- Turn 0 goes on, so it is none of those that fail.
        cases turn with
        | zero =>
          rw [List.getElem?_cons_zero, Option.some.injEq] at found
          rw [found, rx] at goes
          rw [Nat.add_zero] at fails
          rw [fails] at goes
          simp at goes
        | succ turn =>
          rw [List.getElem?_cons_succ] at found
          rw [later turn obj found rx (by rw [shifted]; exact fails)]
      · intro all turn obj found rx fails
        rw [shifted] at fails
        exact Nat.succ_injective (all (turn + 1) obj found rx fails)
    · rw [if_neg goes]
      -- The first turn fails, so the loop is done unless the list has only this object.
      rw [not_or, Bool.not_eq_true, Bool.not_eq_true] at goes
      constructor
      · intro alone turn obj found _ _
        have inside := (List.getElem?_eq_some_iff.mp found).1
        rw [List.length_cons] at inside
        rw [List.length_singleton, List.length_cons] at alone
        rw [List.length_cons]
        omega
      · intro all
        exact all 0 head rfl goes.1 goes.2

/-- The call handles the objects that the loop over the sorted list reaches. -/
theorem processQueuedFifos_handles (kernel : KernelSort Nat) (dlcs : DlcTable)
    (skb : Nat → Bool) (state : Delivery echo) : ∃ entries,
      entries.map Handled.obj = reached state.queued skb 0 (sortedRxb kernel state.queued) ∧
      Handles state (processQueuedFifos kernel dlcs skb state).2 entries := by
  -- Sorting the queue changes the order of the objects and nothing else.
  obtain ⟨entries, objs, handles⟩ := processLoop_handles dlcs skb (sortedRxb kernel state.queued) 0
    { state with queued := { state.queued with rxb := sortedRxb kernel state.queued } }
  refine ⟨entries, ?_, ?_⟩
  · rw [objs]
    apply reached_congr
    rfl
  · exact ⟨handles.handled, handles.kind, handles.slots, handles.txPackets, handles.rxPackets,
      handles.rxDropped⟩

/-- The entries of a call are fixed by the records before and after it. -/
theorem Handles.handledObjs {before after : Delivery echo} {entries : List Handled}
    (handles : Handles before after entries) :
    handledObjs before after = entries.map Handled.obj := by
  -- The entries are what is behind the records that were there before.
  rw [Mcp25xxfd.handledObjs, handles.handled, List.drop_left]

/-- Nothing is lost exactly when no received object but the last one of the list finds no skb. -/
theorem losesNothing_iff (kernel : KernelSort Nat) (dlcs : DlcTable) (skb : Nat → Bool)
    (state : Delivery echo) :
    LosesNothing state (processQueuedFifos kernel dlcs skb state).2 ↔
      ∀ turn obj, (sortedRxb kernel state.queued)[turn]? = some obj →
        state.queued.isTef obj = false → skb turn = false →
          turn + 1 = (sortedRxb kernel state.queued).length := by
  obtain ⟨entries, objs, handles⟩ := processQueuedFifos_handles kernel dlcs skb state
  have perm : (sortedRxb kernel state.queued).Perm state.queued.rxb := kernel.perm _ _
  -- The loop reaches a part of the list, which is the whole list when it is as long.
  have whole := length_reached_iff state.queued skb (sortedRxb kernel state.queued) 0
  simp only [Nat.zero_add] at whole
  rw [← whole]
  constructor
  · intro lost
    -- Both sets of entries belong to the same call, so they are as many.
    obtain ⟨others, all, same⟩ := lost
    rw [← handles.handledObjs.symm.trans same.handledObjs, objs] at all
    rw [all.length_eq, perm.length_eq]
  · intro full
    -- A part of the list that is as long as the list is all of it.
    refine ⟨entries, ?_, handles⟩
    rw [objs, (reached_isPrefix state.queued skb _ 0).eq_of_length full]
    exact perm

/-- An object whose header is all zero but for its flags and its timestamp. -/
def stamped (flags ts : BitVec 32) : ObjTs where
  id := 0
  flags := flags
  ts := ts

/-- A delivery that begins with these queued objects, and with all statistics at zero. -/
def Delivery.begun (echo : EchoTable Nat) (queued : Queued) : Delivery echo where
  queued := queued
  slots := echo.fresh
  txPackets := 0
  txBytes := 0
  rxPackets := 0
  rxBytes := 0
  rxDropped := 0
  txFdCount := 0
  txBrsCount := 0
  txDlcUsage _ := 0
  rxFdCount := 0
  rxBrsCount := 0
  rxDlcUsage _ := 0
  handled := []

/-- A received object that finds no skb takes the TEF object behind it along. -/
theorem dropped_loses_tef :
    ¬ ∀ (echo : EchoTable Nat) (kernel : KernelSort Nat) (dlcs : DlcTable) (skb : Nat → Bool)
      (state : Delivery echo), LosesNothing state (processQueuedFifos kernel dlcs skb state).2 := by
  intro claim
  -- The received object is the older one of the two.
  obtain ⟨entries, perm, handles⟩ := claim (EchoTable.ofFunction Nat)
    (KernelSort.ofInsertionSort Nat) DlcTable.canFd (fun _ => false) (Delivery.begun _
      { fifoData := fun _ => 0
        header := fun obj => if obj = 0 then stamped canObjFlagsCustomIstef 256 else stamped 0 0
        rxb := [0, 12] })
  have handled : [.dropped 12] = entries := handles.handled
  rw [← handled] at perm
  -- One entry cannot stand for two objects.
  exact absurd perm.length_eq (by decide)

/-- The objects of a pass, queued one after the other. -/
def queueObjs (objs : List Nat) (state : Delivery echo) : Delivery echo :=
  { state with
    queued := objs.foldl (fun queued obj => addtoQueuedFifos obj queued)
      (clearQueuedFifos state.queued) }

/-- The signed number that the driver compares, in units of the shift. -/
def counterValue (time : Nat) : Int :=
  if time % 2 ^ 24 < 2 ^ 23 then (time % 2 ^ 24 : Nat) else (time % 2 ^ 24 : Nat) - 2 ^ 24

/-- The counter passes the middle of its range between two events. -/
def Crosses (first second : Nat) : Prop :=
  first < second ∧ first % 2 ^ 24 < 2 ^ 23 ∧ 2 ^ 23 ≤ second % 2 ^ 24

/-- The counter passes the middle of its range between two events of a pass. -/
def CrossesMiddle (time : Nat → Nat) (objs : List Nat) : Prop :=
  ∃ first ∈ objs, ∃ second ∈ objs, Crosses (time first) (time second)

/-- The events on both sides of the middle are compared the wrong way round. -/
theorem Crosses.counterValue_lt {first second : Nat} (crosses : Crosses first second) :
    counterValue second < counterValue first := by
  obtain ⟨_, low, high⟩ := crosses
  -- The later event reads as a negative number, the earlier one as no negative number.
  rw [counterValue, counterValue, if_pos low, if_neg (Nat.not_lt.mpr high)]
  omega

/-- Events of a short window are compared the right way round on one side of the middle. -/
theorem time_le_of_counterValue_le {first second : Nat}
    (values : counterValue first ≤ counterValue second) (near : first < second + 2 ^ 23)
    (inside : ¬ Crosses second first) : first ≤ second := by
  simp only [Crosses, not_and] at inside
  -- Two events that are out of order here would lie on both sides of the middle.
  by_contra later
  rw [Nat.not_le] at later
  have sides := inside later
  rw [counterValue, counterValue] at values
  split at values <;> split at values <;> omega

/-- The comparison of timestamps is the order of signed numbers. -/
theorem compareObjTs_nonpos (queued : Queued) (a b : Nat) :
    compareObjTs queued a b ≤ 0 ↔
      (queued.header a).ts.toInt ≤ (queued.header b).ts.toInt := by
  -- The comparison is negative below, zero at a tie and positive above.
  simp only [compareObjTs, BitVec.slt, decide_eq_true_eq]
  split
  · omega
  · split <;> omega

/-- The comparison of timestamps is an order with ties. -/
theorem compareObjTs_comparator (queued : Queued) : Comparator (compareObjTs queued) where
  total a b := by
    -- The comparison is that of the signed timestamps.
    rw [compareObjTs_nonpos, compareObjTs_nonpos]
    exact Int.le_total _ _
  trans a b c := by
    rw [compareObjTs_nonpos, compareObjTs_nonpos, compareObjTs_nonpos]
    exact Int.le_trans

/-- The shifted timestamp is the signed number of the low 24 bits. -/
theorem toInt_shifted {ts : BitVec 32} {time : Nat} (low : ts.toNat % 2 ^ 24 = time % 2 ^ 24) :
    (ts <<< 8).toInt = 256 * counterValue time := by
  -- The shift drops the upper byte, so the sign is the one of the counter's highest bit.
  have shifted : (ts <<< 8).toNat = 256 * (time % 2 ^ 24) := by
    rw [BitVec.toNat_shiftLeft, Nat.shiftLeft_eq]
    omega
  rw [BitVec.toInt_eq_toNat_cond, shifted, counterValue]
  split <;> split <;> omega

/-- Objects that are at distinct addresses are shifted once each. -/
theorem foldl_addto {objs : List Nat} (distinct : objs.Nodup) (queued : Queued) :
    let last := objs.foldl (fun queued obj => addtoQueuedFifos obj queued) queued
    last.rxb = queued.rxb ++ objs ∧
      (∀ obj ∈ objs, (last.header obj).ts = (queued.header obj).ts <<< 8) ∧
      ∀ obj ∉ objs, last.header obj = queued.header obj := by
  -- The induction is on the objects.
  induction objs generalizing queued with
  | nil =>
    exact ⟨(List.append_nil _).symm, fun _ none => absurd none List.not_mem_nil, fun _ _ => rfl⟩
  | cons head rest ih =>
    obtain ⟨fresh, distinct⟩ := List.nodup_cons.mp distinct
    obtain ⟨rxb, shifted, kept⟩ := ih distinct (addtoQueuedFifos head queued)
    -- The first object is not touched again, and the others were not touched yet.
    have other : ∀ obj, obj ≠ head →
        (addtoQueuedFifos head queued).header obj = queued.header obj := by
      intro obj different
      exact Function.update_of_ne different _ _
    have here :
        ((addtoQueuedFifos head queued).header head).ts = (queued.header head).ts <<< 8 := by
      show (Function.update queued.header head _ head).ts = _
      rw [Function.update_self]
    refine ⟨?_, ?_, ?_⟩
    · rw [List.foldl_cons, rxb]
      exact List.append_assoc queued.rxb [head] rest
    · intro obj member
      rw [List.foldl_cons]
      rcases List.mem_cons.mp member with rfl | later
      · rw [kept obj fresh, here]
      · rw [shifted obj later, other obj fun same => fresh (same ▸ later)]
    · intro obj absent
      rw [List.mem_cons, not_or] at absent
      rw [List.foldl_cons, kept obj absent.2, other obj absent.1]

section Pass

variable {state : Delivery echo} {objs : List Nat} {time : Nat → Nat}

/-- The objects of a pass are sorted by the signed numbers of their true times. -/
theorem sortedRxb_queueObjs (kernel : KernelSort Nat) (distinct : objs.Nodup)
    (carried : ∀ obj ∈ objs, (state.queued.header obj).ts.toNat % 2 ^ 24 = time obj % 2 ^ 24) :
    (sortedRxb kernel (queueObjs objs state).queued).Perm objs ∧
      (sortedRxb kernel (queueObjs objs state).queued).Pairwise fun first second =>
        counterValue (time first) ≤ counterValue (time second) := by
  -- The timestamps are shifted by a byte when they are queued, which keeps their order.
  obtain ⟨rxb, shifted, _⟩ := foldl_addto distinct (clearQueuedFifos state.queued)
  have queued : (queueObjs objs state).queued.rxb = objs := rxb
  have values : ∀ obj ∈ objs,
      ((queueObjs objs state).queued.header obj).ts.toInt = 256 * counterValue (time obj) := by
    intro obj member
    -- Queuing an object shifts its timestamp, once, as its address is in the list once.
    have ts : ((queueObjs objs state).queued.header obj).ts =
        (state.queued.header obj).ts <<< 8 := shifted obj member
    rw [ts]
    exact toInt_shifted (carried obj member)
  have moved : (sortedRxb kernel (queueObjs objs state).queued).Perm
      (queueObjs objs state).queued.rxb := kernel.perm _ _
  have perm := moved.trans (List.Perm.of_eq queued)
  refine ⟨perm, ?_⟩
  -- What the kernel sorts by is the comparison, which is the order of the shifted values.
  have ordered := kernel.sorted _ (queueObjs objs state).queued.rxb
    (compareObjTs_comparator (queueObjs objs state).queued)
  apply List.Pairwise.imp_of_mem ?_ ordered
  intro first second firstMember secondMember below
  rw [compareObjTs_nonpos, values first (perm.mem_iff.mp firstMember),
    values second (perm.mem_iff.mp secondMember)] at below
  omega

/-- A list that is in the order of the times and of the signed numbers has no crossing in it. -/
theorem not_crosses_of_ordered {sorted : List Nat}
    (values : sorted.Pairwise fun first second =>
      counterValue (time first) ≤ counterValue (time second))
    (times : sorted.Pairwise fun first second => time first ≤ time second) :
    ¬ CrossesMiddle time sorted := by
  -- Two events that cross are in one order by time and in the other one by number.
  intro crossing
  obtain ⟨first, firstMember, second, secondMember, crosses⟩ := crossing
  have apart : ∀ earlier later, counterValue (time earlier) ≤ counterValue (time later) →
      time earlier ≤ time later →
      ¬ Crosses (time earlier) (time later) ∧ ¬ Crosses (time later) (time earlier) := by
    intro earlier later inValues inTimes
    constructor
    · intro crosses
      exact absurd crosses.counterValue_lt (Int.not_lt.mpr inValues)
    · intro crosses
      exact absurd crosses.1 (Nat.not_lt.mpr inTimes)
  -- A relation on all pairs in order is one on all pairs, as it is symmetric.
  have never := (values.and times).imp fun both => apart _ _ both.1 both.2
  have symmetric : Std.Symm fun first second =>
      ¬ Crosses (time first) (time second) ∧ ¬ Crosses (time second) (time first) :=
    ⟨fun _ _ => And.symm⟩
  have different : first ≠ second := by
    intro same
    rw [same] at crosses
    exact Nat.lt_irrefl _ crosses.1
  exact (never.forall firstMember secondMember different).1 crosses

end Pass

/--
The objects of a pass are handled in the order of their true times, whatever skbs are found,
exactly when the pass does not cross the middle of the counter's range.
-/
theorem handled_in_order_iff (kernel : KernelSort Nat) (dlcs : DlcTable) (state : Delivery echo)
    (objs : List Nat) (time : Nat → Nat) (distinct : objs.Nodup)
    (carried : ∀ obj ∈ objs, (state.queued.header obj).ts.toNat % 2 ^ 24 = time obj % 2 ^ 24)
    (near : ∀ first ∈ objs, ∀ second ∈ objs, time first < time second + 2 ^ 23) :
    (∀ skb, (handledObjs (queueObjs objs state)
        (processQueuedFifos kernel dlcs skb (queueObjs objs state)).2).Pairwise
          fun first second => time first ≤ time second) ↔
      ¬ CrossesMiddle time objs := by
  -- The sorted list is in the order of the numbers, which is to be the one of the times.
  obtain ⟨perm, sorted⟩ := sortedRxb_queueObjs kernel distinct carried
  constructor
  · intro inOrder crossing
    -- With an skb for every object, the whole list is handled in its order.
    have whole := inOrder fun _ => true
    obtain ⟨entries, all, handles⟩ :=
      processQueuedFifos_handles kernel dlcs (fun _ => true) (queueObjs objs state)
    rw [handles.handledObjs, all, reached_all] at whole
    obtain ⟨first, firstMember, second, secondMember, crosses⟩ := crossing
    -- A list that is ordered both ways has no two events on both sides of the middle.
    apply not_crosses_of_ordered sorted whole
    exact ⟨first, perm.mem_iff.mpr firstMember, second, perm.mem_iff.mpr secondMember, crosses⟩
  · intro inside skb
    obtain ⟨entries, some, handles⟩ :=
      processQueuedFifos_handles kernel dlcs skb (queueObjs objs state)
    rw [handles.handledObjs, some]
    -- What is handled is the first part of the list.
    have first := reached_isPrefix (queueObjs objs state).queued skb
      (sortedRxb kernel (queueObjs objs state).queued) 0
    apply List.Pairwise.imp_of_mem ?_ (sorted.sublist first.sublist)
    intro earlier later earlierMember laterMember values
    have earlierQueued := perm.mem_iff.mp (first.subset earlierMember)
    have laterQueued := perm.mem_iff.mp (first.subset laterMember)
    apply time_le_of_counterValue_le values (near _ earlierQueued _ laterQueued)
    -- A crossing among the handled objects would be one among all of them.
    intro crosses
    exact inside ⟨later, laterQueued, earlier, earlierQueued, crosses⟩

/-- Two objects, the first of them one tick older than the second. -/
def twoObjs (ts : BitVec 32) : Queued where
  fifoData _ := 0
  header obj := if obj = 0 then stamped 0 ts else stamped 0 (ts + 1)
  rxb := []

/-- A tick on which the counter wraps is no tick that crosses the middle. -/
theorem handled_in_order_wrap :
    (∀ skb, (handledObjs
        (queueObjs [12, 0] (Delivery.begun (EchoTable.ofFunction Nat) (twoObjs 0xffffff)))
        (processQueuedFifos (KernelSort.ofInsertionSort Nat) DlcTable.canFd skb
          (queueObjs [12, 0]
            (Delivery.begun (EchoTable.ofFunction Nat) (twoObjs 0xffffff)))).2).Pairwise
          fun first second => (0xffffff + first / 12) ≤ (0xffffff + second / 12)) ↔
      ¬ CrossesMiddle (fun obj => 0xffffff + obj / 12) [12, 0] :=
  handled_in_order_iff (KernelSort.ofInsertionSort Nat) DlcTable.canFd _ [12, 0]
    (fun obj => 0xffffff + obj / 12) (by decide) (by decide) (by decide)

/-- Of two objects on both sides of the middle, the younger one is handled first. -/
theorem middle_out_of_order :
    ¬ ∀ (echo : EchoTable Nat) (kernel : KernelSort Nat) (dlcs : DlcTable) (skb : Nat → Bool)
      (state : Delivery echo) (objs : List Nat) (time : Nat → Nat), objs.Nodup →
      (∀ obj ∈ objs, (state.queued.header obj).ts.toNat % 2 ^ 24 = time obj % 2 ^ 24) →
      (∀ first ∈ objs, ∀ second ∈ objs, time first < time second + 2 ^ 23) →
      (handledObjs (queueObjs objs state)
        (processQueuedFifos kernel dlcs skb (queueObjs objs state)).2).Pairwise
          fun first second => time first ≤ time second := by
  -- Two objects, one on each side of the middle, are sorted and delivered.
  intro claim
  have ordered := claim (EchoTable.ofFunction Nat) (KernelSort.ofInsertionSort Nat) DlcTable.canFd
    (fun _ => true) (Delivery.begun _ (twoObjs 0x7fffff)) [0, 12] (fun obj => 0x7fffff + obj / 12)
    (by decide) (by decide) (by decide)
  exact absurd ordered (by decide)

end OpenwrtMisc.Mcp25xxfd
