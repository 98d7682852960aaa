import OpenwrtMisc.Mcp25xxfd.ErrorState

/-! The error frames of the mcp25xxfd: what the handlers of a pass raise, and what is passed on. -/

namespace OpenwrtMisc.Mcp25xxfd

open BitMask

/-- What marks a frame as an error frame. -/
def canErrFlag : BitVec 32 := bit 29

/-- The bits that a handler adds at once: an error class, and bits of one word of the data. -/
structure ErrorBits where
  id : BitVec 32
  index : Nat
  data : BitVec 32
  deriving DecidableEq, Repr

/-- The error classes that are raised. -/
def raisedClasses (bits : List ErrorBits) : BitVec 32 := union (bits.map ErrorBits.id)

/-- The bits that are or-ed into a word of the data. -/
def raisedData (bits : List ErrorBits) (i : Nat) : BitVec 32 :=
  union ((bits.filter fun added => added.index == i).map ErrorBits.data)

/-- The bits that are added on a condition. -/
def bitsWhen (given : Bool) (bits : List ErrorBits) : List ErrorBits := if given then bits else []

/-- What the overflow handler adds for the FIFOs from `i` on. -/
def rxovifBits (rxovif : BitVec 32) : Nat → Nat → List ErrorBits
  | 0, _ => []
  | left + 1, i =>
    bitsWhen (rxovif.getLsbD i) [⟨canErrCrtl, 1, canErrCrtlRxOverflow⟩] ++
      rxovifBits rxovif left (i + 1)

/-- What the handler of bus errors adds. -/
def cerrifBits (bdiag1 : BitVec 32) : List ErrorBits :=
  [⟨canErrBuserror, 0, 0⟩] ++
  bitsWhen (hasFlag bdiag1 canBdiag1Bit0err) [⟨canErrBuserror, 2, canErrProtBit0⟩] ++
  bitsWhen (hasFlag bdiag1 canBdiag1Bit1err) [⟨canErrBuserror, 2, canErrProtBit1⟩] ++
  bitsWhen (hasFlag bdiag1 canBdiag1Stuferr) [⟨canErrBuserror, 2, canErrProtStuff⟩] ++
  bitsWhen (hasFlag bdiag1 canBdiag1Formerr) [⟨canErrBuserror, 2, canErrProtForm⟩] ++
  bitsWhen (hasFlag bdiag1 canBdiag1Nackerr) [⟨canErrAck, 2, 0⟩]

/-- What each of the handlers adds, in their order. -/
def handlerBits (status : Status) : List (List ErrorBits) :=
  [bitsWhen (hasFlag status.intf canIntSerrif) [⟨canErrCrtl, 1, canErrCrtlUnspec⟩],
    [], [], [],
    rxovifBits status.rxovif 32 0,
    bitsWhen (hasFlag status.intf canIntEccif) [⟨canErrCrtl, 1, canErrCrtlUnspec⟩],
    bitsWhen (hasFlag status.intf canIntIvmif && !hasFlag status.intf canIntSerrif)
      [⟨canErrProt, 2, canErrProtForm⟩],
    bitsWhen (hasFlag status.intf canIntCerrif) (cerrifBits status.bdiag1)]

/-- What the error counter handling adds. -/
def trecBits (trec : BitVec 32) : List ErrorBits :=
  bitsWhen (hasFlag trec canTrecTxwarn) [⟨canErrCrtl, 1, canErrCrtlTxWarning⟩] ++
  bitsWhen (hasFlag trec canTrecRxwarn) [⟨canErrCrtl, 1, canErrCrtlRxWarning⟩] ++
  bitsWhen (hasFlag trec canTrecTxbp) [⟨canErrCrtl, 1, canErrCrtlTxPassive⟩] ++
  bitsWhen (hasFlag trec canTrecRxbp) [⟨canErrCrtl, 1, canErrCrtlRxPassive⟩] ++
  bitsWhen (hasFlag trec canTrecTxbo) [⟨canErrBusoff, 0, 0⟩]

/-- All that a pass adds for a status, one entry for each time that a handler does. -/
def raised (status : Status) : List ErrorBits :=
  (handlerBits status).flatten ++ trecBits status.trec

/-- `data[i]` of an error frame, on a host of either byte order. -/
def ErrorFrame.dataByte (bigEndian : Bool) (frame : ErrorFrame) (i : Nat) : BitVec 32 :=
  let word := if i < 4 then frame.data.1 else frame.data.2
  let place := if bigEndian then 3 - i % 4 else i % 4
  word >>> (8 * place) &&& 0xff

/-- What is asked of an error frame, for the status of its pass. -/
structure ErrorFrame.Sound (bigEndian : Bool) (status : Status) (frame : ErrorFrame) : Prop where
  canId : frame.canId = canErrFlag ||| raisedClasses (raised status)
  data : ∀ i < 8, frame.dataByte bigEndian i = raisedData (raised status) i

/-- The error frames that a step has passed on. -/
def newErrorSkbs (state next : IstState) : List ErrorFrame :=
  next.errorSkbs.drop state.errorSkbs.length

/-- What is asked of a step: each error frame that it passes on is sound. -/
def ErrorFramesSound (bigEndian : Bool) (state : IstState) (label : IstLabel) (next : IstState) :
    Prop :=
  match label with
  | .turn calls words =>
    ∀ frame ∈ newErrorSkbs state next, frame.Sound bigEndian (state.seen calls words)
  | .doSetMode _ => newErrorSkbs state next = []

/-- The error frame of a pass that has seen this status. -/
def errorFrame (status : Status) : ErrorFrame where
  canId := raisedClasses (raised status)
  data := (raisedData (raised status) 0, raisedData (raised status) 1)

/-- Some handler raises an error class for the status. -/
def ClassRaised (status : Status) : Prop :=
  hasFlag status.intf canIntSerrif ∨ status.rxovif ≠ 0 ∨ hasFlag status.intf canIntEccif ∨
    hasFlag status.intf canIntIvmif ∨ hasFlag status.intf canIntCerrif ∨ TrecFlagged status.trec

/-- A turn passes an error frame on: it gets through its handlers with a class, and has an skb. -/
structure PassesError (calls : IstCalls) (words : Status) (state : IstState) : Prop where
  read : calls.read = true
  pending : pendingIrq (state.seen calls words).intf = true
  succeed : calls.HandlersSucceed (state.seen calls words)
  raises : ClassRaised (state.seen calls words)
  skb : calls.errorSkb = true

/-- The steps that pass no error frame on. -/
def NoErrorFrame (state : IstState) : IstLabel → Prop
  | .turn calls words => ¬ PassesError calls words state
  | .doSetMode _ => True

/-- The classes and the data of the error have grown by these bits, and by no others. -/
structure Added (before : IstState) (bits : List ErrorBits) (after : IstState) : Prop where
  id : after.canErrId = before.canErrId ||| raisedClasses bits
  data : ∀ i, after.canErrData i = before.canErrData i ||| raisedData bits i

/-- What a handler adds for a status when it succeeds. -/
def Adds (status : Status) (bits : List ErrorBits) (handler : IstState → Int × IstState) : Prop :=
  ∀ state : IstState, state.status = status → (handler state).1 = 0 →
    Added state bits (handler state).2

/-- Two lists of bits raise the classes of both. -/
theorem raisedClasses_append (first second : List ErrorBits) :
    raisedClasses (first ++ second) = raisedClasses first ||| raisedClasses second := by
  -- A union of two lists is the union of both unions.
  rw [raisedClasses, List.map_append, union_append]
  rfl

/-- They raise the data of both in each word. -/
theorem raisedData_append (first second : List ErrorBits) (i : Nat) :
    raisedData (first ++ second) i = raisedData first i ||| raisedData second i := by
  -- A union of two lists is the union of both unions.
  rw [raisedData, List.filter_append, List.map_append, union_append]
  rfl

variable {calls : IstCalls} {status : Status} {before between after : IstState}
  {first second : List ErrorBits}

/-- What leaves the classes and the data alone adds nothing. -/
theorem Added.nothing (id : after.canErrId = before.canErrId)
    (data : after.canErrData = before.canErrData) : Added before [] after where
  id := id.trans BitVec.or_zero.symm
  data i := (congrFun data i).trans BitVec.or_zero.symm

/-- What is added in two parts is added at once. -/
theorem Added.append (one : Added before first between) (other : Added between second after) :
    Added before (first ++ second) after where
  id := by rw [other.id, one.id, raisedClasses_append, BitVec.or_assoc]
  data i := by rw [other.data, one.data, raisedData_append, BitVec.or_assoc]

/-- One `|=` on the classes and one on a word of the data add their bits. -/
theorem addError_added (id : BitVec 32) (index : Nat) (data : BitVec 32) (state : IstState) :
    Added state [⟨id, index, data⟩] (addError id index data state) where
  id := by
    -- The class is added to the one word, and the data to the word of that index.
    show _ = state.canErrId ||| (id ||| 0#32)
    rw [BitVec.or_zero]
    rfl
  data i := by
    by_cases here : i = index
    · -- The word is the one that the bits are meant for.
      have only : raisedData [⟨id, index, data⟩] i = data ||| 0#32 := by
        rw [raisedData, here]
        simp [union]
      rw [only, BitVec.or_zero, here]
      exact Function.update_self _ _ _
    · have none : raisedData [⟨id, index, data⟩] i = 0#32 := by
        rw [raisedData]
        simp [union, Ne.symm here]
      rw [none, BitVec.or_zero]
      exact Function.update_of_ne here _ _

/-- The class alone, without any bits of the data. -/
theorem added_class (id : BitVec 32) (same : after.canErrData = before.canErrData)
    (grown : after.canErrId = before.canErrId ||| id) : Added before [⟨id, 0, 0⟩] after where
  id := by
    show _ = before.canErrId ||| (id ||| 0#32)
    rw [grown, BitVec.or_zero]
  data i := by
    -- The entry has no bits for any word of the data.
    have none : raisedData [⟨id, 0, 0⟩] i = 0 := by
      rw [raisedData, union_eq_zero]
      intro mask member
      obtain ⟨added, listed, rfl⟩ := List.mem_map.mp member
      rw [List.mem_singleton.mp (List.mem_filter.mp listed).1]
    rw [same, none]
    exact BitVec.or_zero.symm

/-- A handler that is called on a condition adds its bits on that condition. -/
theorem Adds.whenAsked {bits : List ErrorBits} {handler : IstState → Int × IstState}
    (adds : Adds status bits handler) (asks : Status → Bool) :
    Adds status (bitsWhen (asks status) bits) (whenAsked asks handler) := by
  intro state seen done
  -- A handler that is not asked for is passed over with success.
  rw [Mcp25xxfd.whenAsked, seen] at done ⊢
  by_cases asked : asks status = true
  · rw [if_pos asked] at done
    rw [bitsWhen, if_pos asked, if_pos asked]
    exact adds state seen done
  · rw [bitsWhen, if_neg asked, if_neg asked]
    exact .nothing rfl rfl

/-- Handlers in a row add what each of them adds. -/
theorem runHandlers_added {bits : List (List ErrorBits)}
    {handlers : List (IstState → Int × IstState)}
    (keeps : ∀ handler ∈ handlers, Keeps IstState.status handler)
    (each : List.Forall₂ (Adds status) bits handlers) :
    Adds status bits.flatten (runHandlers handlers) := by
  -- A handler that fails is the last one, and the others go on with the same status.
  induction each with
  | nil =>
    intro state _ _
    exact .nothing rfl rfl
  | @cons first handler bits rest adds _ ih =>
    intro state seen done
    rw [runHandlers_cons] at done ⊢
    by_cases failed : (handler state).1 ≠ 0
    · rw [if_pos failed] at done
      exact absurd done failed
    · rw [if_neg failed] at done ⊢
      have here := adds state seen (not_not.mp failed)
      have kept : (handler state).2.status = status :=
        (keeps handler List.mem_cons_self state).trans seen
      exact here.append (ih (fun other member => keeps other (.tail _ member)) _ kept done)

/-- The handler of the system error adds its bits behind its write. -/
theorem handleSerrif_adds (calls : IstCalls) :
    Adds status [⟨canErrCrtl, 1, canErrCrtlUnspec⟩] (handleSerrif calls) := by
  -- The write is named first, as all three cases go on from it.
  intro state _ done
  obtain ⟨written, writtenEq⟩ : ∃ written, written = cmdWriteCanInt calls.serrif
      calls.beforeSerrif (state.status.intf &&& ~~~(canIntSerrif ||| canIntModif ||| canIntIvmif))
      (canIntSerrif ||| canIntModif ||| canIntIvmif) state := ⟨_, rfl⟩
  have wrote : Added state [] written.2 := by
    rw [writtenEq]
    exact .nothing rfl rfl
  have added := wrote.append (addError_added canErrCrtl 1 canErrCrtlUnspec written.2)
  unfold handleSerrif at done ⊢
  dsimp only at done ⊢
  rw [← writtenEq] at done ⊢
  by_cases failed : written.1 ≠ 0
  · rw [if_pos failed] at done
    exact absurd done failed
  · rw [if_neg failed]
    -- The statistics are all that differs between the three cases.
    split
    · exact ⟨added.id, added.data⟩
    · split <;> exact ⟨added.id, added.data⟩

/-- The overflow handler adds its bits once for each FIFO. -/
theorem handleRxovif_adds (calls : IstCalls) (status : Status) :
    Adds status (rxovifBits status.rxovif 32 0) (handleRxovif calls) := by
  -- The loop is followed FIFO by FIFO.
  have rounds : ∀ left i,
      Adds status (rxovifBits status.rxovif left i) (rxovifLoop calls.rxovif left i) := by
    intro left
    -- The induction is on the FIFOs that are left.
    induction left with
    | zero =>
      intro i state _ _
      exact .nothing rfl rfl
    | succ left ih =>
      intro i state seen done
      unfold rxovifLoop at done ⊢
      rw [rxovifBits, ← seen]
      by_cases set : state.status.rxovif.getLsbD i = true
      · rw [if_pos set] at done ⊢
        rw [bitsWhen, if_pos set]
        by_cases written : calls.rxovif i = true
        · rw [if_pos written] at done ⊢
          have here := addError_added canErrCrtl 1 canErrCrtlRxOverflow state
          have rest := ih (i + 1) _ (by exact seen) done
          rw [← seen] at rest
          refine Added.append ?_ rest
          exact ⟨here.id, here.data⟩
        · rw [if_neg written] at done
          have failed : -eio ≠ 0 := by decide
          exact absurd done failed
      · rw [if_neg set] at done ⊢
        rw [bitsWhen, if_neg set]
        have rest := ih (i + 1) state seen done
        rw [← seen] at rest
        exact rest
  exact rounds 32 0

/-- An error of the RAM is unspecified. -/
theorem handleEccif_adds (calls : IstCalls) :
    Adds status [⟨canErrCrtl, 1, canErrCrtlUnspec⟩] (handleEccif calls) := by
  -- Both branches add the same bits.
  intro state _ _
  have added := addError_added canErrCrtl 1 canErrCrtlUnspec state
  unfold handleEccif
  dsimp only
  split <;> exact added

/-- An invalid message is a form error, unless the status has a system error. -/
theorem handleIvmif_adds (status : Status) :
    Adds status (bitsWhen (!hasFlag status.intf canIntSerrif) [⟨canErrProt, 2, canErrProtForm⟩])
      handleIvmif := by
  intro state seen _
  unfold handleIvmif
  rw [seen]
  -- With a system error the invalid message is only counted.
  by_cases serrif : hasFlag status.intf canIntSerrif = true
  · rw [if_pos serrif, serrif]
    exact .nothing rfl rfl
  · rw [if_neg serrif, (Bool.not_eq_true _).mp serrif]
    have added := addError_added canErrProt 2 canErrProtForm state
    exact ⟨added.id, added.data⟩

/-- A bus error adds its bits when CAN_BDIAG1 tells of it. -/
theorem bdiag1Case_added {bits : List ErrorBits} (flags id data : BitVec 32)
    (earlier : Added before bits after) :
    Added before (bits ++ bitsWhen (hasFlag after.status.bdiag1 flags) [⟨id, 2, data⟩])
      (bdiag1Case flags id data after) := by
  -- The flag is set and adds its bits, or nothing is added.
  apply earlier.append
  unfold bdiag1Case
  by_cases set : hasFlag after.status.bdiag1 flags = true
  · rw [if_pos set, set]
    have added := addError_added id 2 data after
    exact ⟨added.id, added.data⟩
  · rw [if_neg set, (Bool.not_eq_true _).mp set]
    exact .nothing rfl rfl

/-- The handler of bus errors adds its class, and then what each bus error adds. -/
theorem handleCerrif_adds : Adds status (cerrifBits status.bdiag1) handleCerrif := by
  -- No case changes the status that the later ones look at.
  intro state seen _
  have kept (flags id data : BitVec 32) (state : IstState) :
      (bdiag1Case flags id data state).status = state.status :=
    congrArg Core.status (bdiag1Case_keeps flags id data state).1
  have start : Added state [⟨canErrBuserror, 0, 0⟩]
      { state with canErrId := state.canErrId ||| canErrBuserror } :=
    added_class canErrBuserror rfl rfl
  -- The five cases follow one after the other, over the same status.
  have all := bdiag1Case_added canBdiag1Nackerr canErrAck 0
    (bdiag1Case_added canBdiag1Formerr canErrBuserror canErrProtForm
      (bdiag1Case_added canBdiag1Stuferr canErrBuserror canErrProtStuff
        (bdiag1Case_added canBdiag1Bit1err canErrBuserror canErrProtBit1
          (bdiag1Case_added canBdiag1Bit0err canErrBuserror canErrProtBit0 start))))
  simp only [kept] at all
  rw [← seen]
  exact all

/-- The bits of a condition within another one are those of both. -/
theorem bitsWhen_bitsWhen (outer inner : Bool) (bits : List ErrorBits) :
    bitsWhen outer (bitsWhen inner bits) = bitsWhen (outer && inner) bits := by
  cases outer <;> cases inner <;> rfl

/-- Without an overflow the handler that is not called would add nothing. -/
theorem bitsWhen_rxovif (rxovif : BitVec 32) :
    bitsWhen (decide (rxovif ≠ 0)) (rxovifBits rxovif 32 0) = rxovifBits rxovif 32 0 := by
  -- With an overflow the condition is met, without one the list is empty.
  by_cases some : rxovif ≠ 0
  · rw [bitsWhen, if_pos (decide_eq_true some)]
  · -- No FIFO has its bit set.
    have none : ∀ left i, rxovifBits 0 left i = [] := by
      intro left
      induction left with
      | zero => exact fun _ => rfl
      | succ left ih =>
        intro i
        rw [rxovifBits, ih]
        simp [bitsWhen]
    rw [not_not.mp some, none, bitsWhen, ite_self]

/-- A handler that is not modelled here adds nothing. -/
theorem returning_adds (status : Status) (ret : Int) : Adds status [] (returning ret) :=
  fun _ _ _ => .nothing rfl rfl

/-- The handlers of a pass add what the status asks for. -/
theorem handlers_add (calls : IstCalls) (status : Status) :
    Adds status (handlerBits status).flatten (runHandlers (handlers calls)) := by
  have keeps : ∀ handler ∈ handlers calls, Keeps IstState.status handler :=
    fun handler member => (handlers_keep_core calls handler member).part Core.status
  -- Three of the eight handlers are not modelled here, and add nothing.
  have silent (asks : Status → Bool) (ret : Int) :
      Adds status [] (whenAsked asks (returning ret)) := by
    have adds := (returning_adds status ret).whenAsked asks
    rw [bitsWhen, ite_self] at adds
    exact adds
  apply runHandlers_added keeps
  refine .cons ?_ (.cons ?_ (.cons ?_ (.cons ?_ (.cons ?_ (.cons ?_ (.cons ?_ (.cons ?_ .nil)))))))
  · exact (handleSerrif_adds calls).whenAsked fun status => hasFlag status.intf canIntSerrif
  · exact silent _ calls.modif
  · exact silent _ calls.txatif
  · exact silent _ calls.tefif
  · have adds := (handleRxovif_adds calls status).whenAsked fun status =>
      decide (status.rxovif ≠ 0)
    rw [bitsWhen_rxovif] at adds
    exact adds
  · exact (handleEccif_adds calls).whenAsked fun status => hasFlag status.intf canIntEccif
  · have adds := (handleIvmif_adds status).whenAsked fun status =>
      hasFlag status.intf canIntIvmif
    rw [bitsWhen_bitsWhen] at adds
    exact adds
  · exact handleCerrif_adds.whenAsked fun status => hasFlag status.intf canIntCerrif

/-- A test of CAN_TREC adds its bits when the flag is set. -/
theorem trecCase_added {bits : List ErrorBits} (flag : BitVec 32) (newState : CanState)
    (data : BitVec 32) (earlier : Added before bits after) :
    Added before (bits ++ bitsWhen (hasFlag after.status.trec flag) [⟨canErrCrtl, 1, data⟩])
      (trecCase flag newState data after) := by
  -- The flag is set and adds its bits, or nothing is added.
  apply earlier.append
  unfold trecCase
  by_cases set : hasFlag after.status.trec flag = true
  · rw [if_pos set, set]
    have added := addError_added canErrCrtl 1 data after
    exact ⟨added.id, added.data⟩
  · rw [if_neg set, (Bool.not_eq_true _).mp set]
    exact .nothing rfl rfl

/-- The error counter handling adds what CAN_TREC asks for. -/
theorem handleTrec_added (state : IstState) :
    Added state (trecBits state.status.trec) (handleTrec state) := by
  -- No test changes the register that the later ones look at.
  have status := trecCase_keeps IstState.status fun _ _ _ _ => rfl
  have start : Added state [] state := .nothing rfl rfl
  have warned := trecCase_added canTrecRxwarn .errorWarning canErrCrtlRxWarning
    (trecCase_added canTrecTxwarn .errorWarning canErrCrtlTxWarning start)
  have passive := trecCase_added canTrecRxbp .errorPassive canErrCrtlRxPassive
    (trecCase_added canTrecTxbp .errorPassive canErrCrtlTxPassive warned)
  simp only [status] at passive
  -- The last test adds a class only.
  refine passive.append ?_
  unfold handleTrec trecBusOff
  simp only [status]
  by_cases off : hasFlag state.status.trec canTrecTxbo = true
  · rw [if_pos off, off]
    exact added_class canErrBusoff rfl rfl
  · rw [if_neg off, (Bool.not_eq_true _).mp off]
    exact .nothing rfl rfl

/-- What holds of the bits that are added on a condition. -/
theorem forall_bitsWhen {property : ErrorBits → Prop} {given : Bool} {bits : List ErrorBits} :
    (∀ added ∈ bitsWhen given bits, property added) ↔
      (given = true → ∀ added ∈ bits, property added) := by
  -- The condition is met or not.
  cases given with
  | true => exact ⟨fun all _ => all, fun all => all rfl⟩
  | false =>
    exact iff_of_true (fun _ member => absurd member List.not_mem_nil)
      fun given => absurd given Bool.false_ne_true

/-- The overflow handler adds the same bits for every FIFO. -/
theorem forall_rxovifBits {property : ErrorBits → Prop} {rxovif : BitVec 32} :
    (∀ added ∈ rxovifBits rxovif 32 0, property added) ↔
      (rxovif ≠ 0 → property ⟨canErrCrtl, 1, canErrCrtlRxOverflow⟩) := by
  -- The rounds go over the FIFOs from one on, and each set bit among them asks for the property.
  have rounds : ∀ left i, (∀ added ∈ rxovifBits rxovif left i, property added) ↔
      ∀ j, i ≤ j → j < i + left → rxovif.getLsbD j = true →
        property ⟨canErrCrtl, 1, canErrCrtlRxOverflow⟩ := by
    intro left
    induction left with
    | zero =>
      intro i
      exact iff_of_true (fun _ member => absurd member List.not_mem_nil) (by omega)
    | succ left ih =>
      intro i
      rw [rxovifBits, List.forall_mem_append, ih, forall_bitsWhen, List.forall_mem_singleton]
      constructor
      · -- The first FIFO is the one of this round, all others are left to the rounds after it.
        intro both j above below
        rcases Nat.eq_or_lt_of_le above with same | later
        · exact same ▸ both.1
        · exact both.2 j later (by omega)
      · intro all
        exact ⟨all i (by omega) (by omega), fun j above below => all j (by omega) (by omega)⟩
  rw [rounds]
  constructor
  · intro all some
    obtain ⟨i, set⟩ := exists_getLsbD some
    have inside := BitVec.lt_of_getLsbD set
    exact all i (Nat.zero_le i) (by omega) set
  · intro given j _ _ set
    apply given
    intro none
    rw [none] at set
    exact absurd set (by simp)

/-- What holds of all bits that a pass adds. -/
theorem forall_raised {property : ErrorBits → Prop} {status : Status} :
    (∀ added ∈ raised status, property added) ↔
      (hasFlag status.intf canIntSerrif = true →
          property ⟨canErrCrtl, 1, canErrCrtlUnspec⟩) ∧
        (status.rxovif ≠ 0 → property ⟨canErrCrtl, 1, canErrCrtlRxOverflow⟩) ∧
        (hasFlag status.intf canIntEccif = true →
          property ⟨canErrCrtl, 1, canErrCrtlUnspec⟩) ∧
        ((hasFlag status.intf canIntIvmif && !hasFlag status.intf canIntSerrif) = true →
          property ⟨canErrProt, 2, canErrProtForm⟩) ∧
        (hasFlag status.intf canIntCerrif = true →
          ∀ added ∈ cerrifBits status.bdiag1, property added) ∧
        ∀ added ∈ trecBits status.trec, property added := by
  -- What holds of a list in parts holds of each part, under the condition of its handler.
  simp only [raised, handlerBits, List.forall_mem_append, List.flatten_cons, List.flatten_nil,
    forall_bitsWhen, forall_rxovifBits, List.forall_mem_singleton, List.not_mem_nil,
    false_imp_iff, implies_true, true_and, and_true, and_assoc]

/-- What holds of all bits that the handler of bus errors adds. -/
theorem forall_cerrifBits {property : ErrorBits → Prop} {bdiag1 : BitVec 32} :
    (∀ added ∈ cerrifBits bdiag1, property added) ↔
      property ⟨canErrBuserror, 0, 0⟩ ∧
        (hasFlag bdiag1 canBdiag1Bit0err = true → property ⟨canErrBuserror, 2, canErrProtBit0⟩) ∧
        (hasFlag bdiag1 canBdiag1Bit1err = true → property ⟨canErrBuserror, 2, canErrProtBit1⟩) ∧
        (hasFlag bdiag1 canBdiag1Stuferr = true →
          property ⟨canErrBuserror, 2, canErrProtStuff⟩) ∧
        (hasFlag bdiag1 canBdiag1Formerr = true → property ⟨canErrBuserror, 2, canErrProtForm⟩) ∧
        (hasFlag bdiag1 canBdiag1Nackerr = true → property ⟨canErrAck, 2, 0⟩) := by
  -- The bits are those of six tests in a row.
  simp only [cerrifBits, List.forall_mem_append, forall_bitsWhen, List.forall_mem_singleton,
    and_assoc]

/-- What holds of all bits that the error counter handling adds. -/
theorem forall_trecBits {property : ErrorBits → Prop} {trec : BitVec 32} :
    (∀ added ∈ trecBits trec, property added) ↔
      (hasFlag trec canTrecTxwarn = true → property ⟨canErrCrtl, 1, canErrCrtlTxWarning⟩) ∧
        (hasFlag trec canTrecRxwarn = true → property ⟨canErrCrtl, 1, canErrCrtlRxWarning⟩) ∧
        (hasFlag trec canTrecTxbp = true → property ⟨canErrCrtl, 1, canErrCrtlTxPassive⟩) ∧
        (hasFlag trec canTrecRxbp = true → property ⟨canErrCrtl, 1, canErrCrtlRxPassive⟩) ∧
        (hasFlag trec canTrecTxbo = true → property ⟨canErrBusoff, 0, 0⟩) := by
  -- The bits are those of five tests in a row.
  simp only [trecBits, List.forall_mem_append, forall_bitsWhen, List.forall_mem_singleton,
    and_assoc]

/-- Whatever holds of each class holds of all classes that a pass raises. -/
theorem forall_raised_of_classes {property : ErrorBits → Prop} (status : Status)
    (known : ∀ id ∈ [canErrCrtl, canErrProt, canErrAck, canErrBusoff, canErrBuserror],
      ∀ index data, property ⟨id, index, data⟩) :
    ∀ added ∈ raised status, property added := by
  -- Each of the bits has one of the five classes.
  simp only [List.forall_mem_cons, List.not_mem_nil, false_imp_iff, implies_true, and_true] at known
  obtain ⟨crtl, prot, ack, busoff, buserror⟩ := known
  simp only [forall_raised, forall_cerrifBits, forall_trecBits, crtl, prot, ack, busoff, buserror,
    implies_true, and_true]

/-- No class is the mark of an error frame. -/
theorem raisedClasses_unmarked (status : Status) :
    (raisedClasses (raised status)).getLsbD 29 = false := by
  -- The mark is bit 29, which none of the five classes has.
  have unmarked : ∀ added ∈ raised status, added.id.getLsbD 29 = false :=
    forall_raised_of_classes status (by
      intro id member _ _
      have all : ∀ id ∈ [canErrCrtl, canErrProt, canErrAck, canErrBusoff, canErrBuserror],
          id.getLsbD 29 = false := by
        simp [canErrCrtl, canErrProt, canErrAck, canErrBusoff, canErrBuserror]
      exact all id member)
  rw [raisedClasses, getLsbD_union, List.any_map, List.any_eq_false]
  intro added member
  rw [Bool.not_eq_true]
  exact unmarked added member

/-- Some class is raised exactly when some handler raises one. -/
theorem raisedClasses_ne_zero (status : Status) :
    raisedClasses (raised status) ≠ 0 ↔ ClassRaised status := by
  -- Each handler that raises a class raises one that is not empty.
  have crtl : ¬ canErrCrtl = 0 := by decide
  have prot : ¬ canErrProt = 0 := by decide
  have busoff : ¬ canErrBusoff = 0 := by decide
  have buserror : ¬ canErrBuserror = 0 := by decide
  rw [← not_iff_not, not_not, raisedClasses, union_eq_zero, List.forall_mem_map, forall_raised,
    forall_cerrifBits, forall_trecBits, ClassRaised, TrecFlagged]
  simp only [crtl, prot, busoff, buserror, imp_false, not_or, not_not, false_and]
  cases hasFlag status.intf canIntSerrif <;> simp

/-- No handler passes an error frame on. -/
theorem handlers_keep_errorSkbs (calls : IstCalls) :
    ∀ handler ∈ handlers calls, Keeps IstState.errorSkbs handler := by
  -- Every handler changes fields of its own, and the frames are not among them.
  have returns (ret : Int) : Keeps IstState.errorSkbs (returning ret) := fun _ => rfl
  simp only [handlers, List.forall_mem_cons, List.not_mem_nil, false_imp_iff, implies_true,
    and_true]
  refine ⟨?_, ?_, ?_, ?_, ?_, ?_, ?_, ?_⟩ <;> apply whenAsked_keeps
  · intro state
    unfold handleSerrif
    dsimp only
    split
    · rfl
    · split
      · rfl
      · split <;> rfl
  · exact returns calls.modif
  · exact returns calls.txatif
  · exact returns calls.tefif
  · have rounds : ∀ left i, Keeps IstState.errorSkbs (rxovifLoop calls.rxovif left i) := by
      intro left
      induction left with
      | zero => exact fun _ _ => rfl
      | succ left ih =>
        intro i state
        unfold rxovifLoop
        split
        · split
          · exact ih (i + 1) _
          · rfl
        · exact ih (i + 1) state
    exact rounds 32 0
  · intro state
    unfold handleEccif
    dsimp only
    split <;> rfl
  · intro state
    unfold handleIvmif
    split <;> rfl
  · have kept (flags id data : BitVec 32) (state : IstState) :
        (bdiag1Case flags id data state).errorSkbs = state.errorSkbs := by
      unfold bdiag1Case
      split <;> rfl
    intro state
    unfold handleCerrif
    dsimp only
    rw [kept, kept, kept, kept, kept]

/-- The error counter handling passes no error frame on either. -/
theorem handleTrec_errorSkbs (state : IstState) :
    (handleTrec state).errorSkbs = state.errorSkbs :=
  handleTrec_keeps IstState.errorSkbs (fun _ _ _ _ => rfl) state

/-- The change of the state passes a frame on when a class is raised and an skb is found. -/
theorem enterState_errorSkbs (calls : IstCalls) (state : IstState) :
    (enterState calls state).errorSkbs = state.errorSkbs ++
      if state.canErrId ≠ 0 ∧ calls.errorSkb = true then
        [⟨state.canErrId, (state.canErrData 0, state.canErrData 1)⟩]
      else [] := by
  unfold enterState errorSkb
  dsimp only
  -- There is a frame to pass on when a class is raised, and it is passed on when there is an skb.
  by_cases raised : state.canErrId ≠ 0
  · rw [if_pos raised]
    by_cases skb : calls.errorSkb = true
    · rw [if_pos skb, if_pos ⟨raised, skb⟩]
    · rw [if_neg skb, if_neg fun both => skb both.2, List.append_nil]
  · rw [if_neg raised, if_neg fun both => raised both.1, List.append_nil]

/-- The end of a pass sends no error frame. -/
theorem followState_errorSkbs (calls : IstCalls) (state : IstState) :
    (followState calls state).errorSkbs = state.errorSkbs := by
  -- No branch makes a frame.
  unfold followState
  split
  · split <;> rfl
  · split <;> rfl

/-- A pass that gets through its handlers passes on the frame of its status, or no frame. -/
theorem handleStatus_completes (calls : IstCalls) (state : IstState)
    (succeed : calls.HandlersSucceed state.status) :
    (handleStatus calls state).2.errorSkbs = state.errorSkbs ++
      if raisedClasses (raised state.status) ≠ 0 ∧ calls.errorSkb = true then
        [errorFrame state.status]
      else [] := by
  -- The pass is cut into its first write, its handlers and its end.
  obtain ⟨written, writtenEq⟩ : ∃ written, written = cmdWriteCanInt calls.clear calls.beforeClear
      (state.status.intf &&& ~~~clearIrq) clearIrq state := ⟨_, rfl⟩
  have cleared := (cmdWriteCanInt_ret calls.clear calls.beforeClear
    (state.status.intf &&& ~~~clearIrq) clearIrq (by decide) state).mpr succeed.clear
  obtain ⟨begun, begunEq⟩ : ∃ begun, begun = beginPass written.2 := ⟨_, rfl⟩
  have seen : begun.status = state.status := by
    rw [begunEq, writtenEq]
    rfl
  have skbs : begun.errorSkbs = state.errorSkbs := by
    rw [begunEq, writtenEq]
    rfl
  have ran := ((calls.handlersSucceed_iff seen).mp succeed).2
  obtain ⟨run, runEq⟩ : ∃ run, run = runHandlers (handlers calls) begun := ⟨_, rfl⟩
  have unfolded := handleStatus_eq calls state
  dsimp only at unfolded
  rw [← writtenEq] at cleared unfolded
  rw [← begunEq, ← runEq, if_neg (not_not_intro cleared)] at unfolded
  rw [← runEq] at ran
  rw [if_neg (not_not_intro ran)] at unfolded
  -- The pass starts with no class and two empty words, so what is passed on is what was added.
  have core := runHandlers_keeps (handlers_keep_core calls) begun
  rw [← runEq] at core
  have status : run.2.status = state.status := (congrArg Core.status core).trans seen
  have handled : Added begun (handlerBits state.status).flatten run.2 := by
    rw [runEq]
    apply handlers_add calls state.status begun seen
    rw [← runEq]
    exact ran
  have counted := handleTrec_added run.2
  rw [status] at counted
  have added : Added begun (raised state.status) (handleTrec run.2) := handled.append counted
  have id : (handleTrec run.2).canErrId = raisedClasses (raised state.status) := by
    rw [added.id, begunEq]
    exact BitVec.zero_or
  have data : ∀ i < 2, (handleTrec run.2).canErrData i = raisedData (raised state.status) i := by
    intro i inside
    have empty : begun.canErrData i = 0#32 := by
      rw [begunEq]
      exact if_pos inside
    rw [added.data, empty]
    exact BitVec.zero_or
  have before := runHandlers_keeps (handlers_keep_errorSkbs calls) begun
  rw [← runEq, skbs] at before
  rw [unfolded]
  show (followState calls (enterState calls (handleTrec run.2))).errorSkbs = _
  rw [followState_errorSkbs, enterState_errorSkbs, handleTrec_errorSkbs, before, id,
    data 0 (by decide), data 1 (by decide)]
  rfl

/-- A pass that fails before the end of its handlers passes no frame on. -/
theorem handleStatus_fails (calls : IstCalls) (state : IstState)
    (fails : ¬ calls.HandlersSucceed state.status) :
    (handleStatus calls state).2.errorSkbs = state.errorSkbs := by
  -- A frame is passed on at the end only, which is not reached.
  obtain ⟨written, writtenEq⟩ : ∃ written, written = cmdWriteCanInt calls.clear calls.beforeClear
      (state.status.intf &&& ~~~clearIrq) clearIrq state := ⟨_, rfl⟩
  have cleared := cmdWriteCanInt_ret calls.clear calls.beforeClear
    (state.status.intf &&& ~~~clearIrq) clearIrq (by decide) state
  have unfolded := handleStatus_eq calls state
  dsimp only at unfolded
  rw [← writtenEq] at cleared unfolded
  have skbs : written.2.errorSkbs = state.errorSkbs := by
    rw [writtenEq]
    rfl
  -- Either the write that clears the flags fails, or one of the handlers does.
  by_cases wrote : written.1 = 0
  · have seen : (beginPass written.2).status = state.status := by
      rw [writtenEq]
      rfl
    have failed : ¬ (runHandlers (handlers calls) (beginPass written.2)).1 = 0 :=
      fun ran => fails ((calls.handlersSucceed_iff seen).mpr ⟨cleared.mp wrote, ran⟩)
    rw [if_neg (not_not_intro wrote), if_pos failed] at unfolded
    rw [unfolded, runHandlers_keeps (handlers_keep_errorSkbs calls)]
    exact skbs
  · rw [if_pos wrote] at unfolded
    rw [unfolded]
    exact skbs

/-- A turn passes on the frame of the status that it has seen, or no frame. -/
theorem newErrorSkbs_istTurn (calls : IstCalls) (words : Status) (state : IstState) :
    (PassesError calls words state →
        newErrorSkbs state (istTurn calls words state).2 =
          [errorFrame (state.seen calls words)]) ∧
      (¬ PassesError calls words state →
        newErrorSkbs state (istTurn calls words state).2 = []) := by
  -- The pass of the turn decides, if the turn gets as far as that.
  have turn := istTurn_eq calls words state
  have status : (state.begun calls words).status = state.seen calls words := rfl
  have skbs : (state.begun calls words).errorSkbs = state.errorSkbs := rfl
  have completes := handleStatus_completes calls (state.begun calls words)
  have fails := handleStatus_fails calls (state.begun calls words)
  rw [status, skbs] at completes fails
  constructor
  · intro passes
    have both := (raisedClasses_ne_zero _).mpr passes.raises
    rw [if_pos passes.read, if_pos passes.pending] at turn
    rw [turn, newErrorSkbs, completes passes.succeed, if_pos ⟨both, passes.skb⟩, List.drop_left]
  · intro silent
    rw [newErrorSkbs]
    by_cases read : calls.read = true
    · by_cases pending : pendingIrq (state.seen calls words).intf = true
      · rw [if_pos read, if_pos pending] at turn
        rw [turn]
        by_cases succeed : calls.HandlersSucceed (state.seen calls words)
        · -- Then it is the class or the skb that is missing.
          have missing : ¬ (raisedClasses (raised (state.seen calls words)) ≠ 0 ∧
              calls.errorSkb = true) := by
            intro both
            exact silent ⟨read, pending, succeed, (raisedClasses_ne_zero _).mp both.1, both.2⟩
          rw [completes succeed, if_neg missing, List.append_nil, List.drop_length]
        · rw [fails succeed, List.drop_length]
      · rw [if_pos read, if_neg pending] at turn
        rw [turn]
        exact List.drop_length
    · rw [if_neg read] at turn
      rw [turn]
      exact List.drop_length

/-- The handlers use two words of the data only. -/
theorem raisedData_other (status : Status) {i : Nat} (one : i ≠ 1) (two : i ≠ 2) :
    raisedData (raised status) i = 0 := by
  -- All bits that a pass adds go to word 1 or word 2, or are none.
  have empty : ∀ added ∈ raised status, added.index = i → added.data = 0 := by
    simp only [forall_raised, forall_cerrifBits, forall_trecBits, one.symm, two.symm,
      false_imp_iff, implies_true, and_true]
  rw [raisedData, union_eq_zero, List.forall_mem_map]
  intro added member
  obtain ⟨listed, here⟩ := List.mem_filter.mp member
  exact empty added listed (eq_of_beq here)

/--
The data of an error frame is right on either host just when no handler adds to it.

What is copied are the bytes of two words, and the first one is never used.
-/
theorem errorFrame_data_iff (bigEndian : Bool) (status : Status) :
    (∀ i < 8, (errorFrame status).dataByte bigEndian i = raisedData (raised status) i) ↔
      raisedData (raised status) 1 = 0 ∧ raisedData (raised status) 2 = 0 := by
  -- The first word is never used, so the first four bytes of the frame are zero.
  have first : (errorFrame status).data.1 = 0 :=
    raisedData_other status (by decide) (by decide)
  have front : ∀ i < 4, (errorFrame status).dataByte bigEndian i = 0 := by
    intro i inside
    rw [ErrorFrame.dataByte, if_pos inside, first]
    show (0#32 >>> _) &&& 0xff = 0#32
    rw [BitVec.zero_ushiftRight, BitVec.zero_and]
  constructor
  · intro right
    -- The bytes 1 and 2 are among those four.
    have one := right 1 (by decide)
    have two := right 2 (by decide)
    rw [front 1 (by decide)] at one
    rw [front 2 (by decide)] at two
    exact ⟨one.symm, two.symm⟩
  · intro nothing i inside
    have all : raisedData (raised status) i = 0 := by
      by_cases one : i = 1
      · rw [one, nothing.1]
      · by_cases two : i = 2
        · rw [two, nothing.2]
        · exact raisedData_other status one two
    rw [all]
    by_cases low : i < 4
    · exact front i low
    · -- The second word is empty as well.
      have second : (errorFrame status).data.2 = 0 := nothing.1
      rw [ErrorFrame.dataByte, if_neg low, second]
      show (0#32 >>> _) &&& 0xff = 0#32
      rw [BitVec.zero_ushiftRight, BitVec.zero_and]

/-- The frame of a pass lacks the mark of an error frame. -/
theorem errorFrame_unsound (bigEndian : Bool) (status : Status) :
    ¬ (errorFrame status).Sound bigEndian status := by
  intro sound
  -- Bit 29 is what the frame should have and does not have.
  have marked := congrArg (fun id => id.getLsbD 29) sound.canId
  dsimp only [errorFrame] at marked
  rw [BitVec.getLsbD_or, raisedClasses_unmarked] at marked
  exact absurd marked (by decide)

/--
The error frames of a run are sound exactly when there are none.

The run is any sequence of turns of the interrupt thread and of restarts, from any state on.
-/
theorem errorFramesSound_iff (bigEndian : Bool) (start : IstState) (labels : List IstLabel) :
    (istMachine start).Along (ErrorFramesSound bigEndian) start labels ↔
      (istMachine start).Along (fun state label _ => NoErrorFrame state label) start labels := by
  -- Each step decides for itself, on the state that the steps before it have left.
  apply Machine.along_congr
  intro state label next stepped
  cases label with
  | turn calls words =>
    rw [istStep_turn stepped]
    obtain ⟨passed, silent⟩ := newErrorSkbs_istTurn calls words state
    constructor
    · intro sound passes
      refine errorFrame_unsound bigEndian (state.seen calls words) (sound _ ?_)
      rw [passed passes]
      exact List.mem_singleton_self _
    · intro none frame member
      rw [silent none] at member
      exact absurd member List.not_mem_nil
  | doSetMode mode =>
    -- The restart leaves the state as it is.
    simp only [istMachine, istStep, Option.some.injEq] at stepped
    subst stepped
    exact iff_of_true List.drop_length trivial

/-- A bus error is told of by a frame that does not look like an error frame. -/
theorem busError_unsound :
    ¬ ∀ (bigEndian : Bool) (restartMs : Nat) (labels : List IstLabel),
      (istMachine (.opened restartMs)).Along (ErrorFramesSound bigEndian) (.opened restartMs)
        labels := by
  intro claim
  have along := claim false 100 [.turn (.signalled canIntCerrif)
    { intf := 0, rxovif := 0, txatif := 0, trec := 0, bdiag1 := 0 }]
  -- The one frame of this turn has the class of a bus error, and nothing else.
  have sound := (along _ rfl).1 ⟨canErrBuserror, 0, 0⟩ (by decide)
  exact absurd sound.canId (by decide)

end OpenwrtMisc.Mcp25xxfd
