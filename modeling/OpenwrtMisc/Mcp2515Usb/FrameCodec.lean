import Mathlib.Algebra.Order.Ring.Nat
import Mathlib.Tactic.SplitIfs
import OpenwrtMisc.Lib.BitMask
import OpenwrtMisc.Mcp2515Usb.Frames

/-! Frames come back from the device as they were sent, and a transfer cannot forge all of one. -/

namespace OpenwrtMisc.Mcp2515Usb

open BitMask

/-- The record of the transfer with a number. -/
def record (urb : RxUrb) (k : Nat) : RxMsg :=
  rxMsgOf ((urb.transfer.drop (k * rxMsgSize)).take rxMsgSize)

/-- The number of complete records of a transfer. -/
def records (urb : RxUrb) : Nat := urb.transfer.length / rxMsgSize

/-- What is expected of a frame that is passed on for a data record. -/
def Delivery.Sanitised : Delivery → Prop
  | .error _ => True
  | .data msg cf =>
    cf.canDlc ≤ 8 ∧
      (cf.canId &&& canEffFlag ≠ 0 ↔ msg.flags &&& extid ≠ 0) ∧
      (cf.canId &&& canRtrFlag ≠ 0 ↔ msg.flags &&& rtr ≠ 0) ∧
      cf.canId &&& canErrFlag = 0 ∧
      (cf.canId &&& canErrMask).toNat < if cf.canId &&& canEffFlag ≠ 0 then 2 ^ 29 else 2 ^ 11

/-- What is expected of a callback: it reads inside the transfer, and passes on sanitised frames. -/
def Sanitises (urb : RxUrb) (before : RxDevice) : Prop :=
  ∃ after deliveries, readIntCallback urb before = .ok after ∧
    after.netifRx = before.netifRx ++ deliveries ∧ ∀ delivery ∈ deliveries, delivery.Sanitised

/-- An identifier whose upper bits agree with the flags of its record. -/
structure CleanId (msg : RxMsg) : Prop where
  eff : be32ToCpu msg.id &&& canEffFlag ≠ 0 → msg.flags &&& extid ≠ 0
  rtr : be32ToCpu msg.id &&& canRtrFlag ≠ 0 → msg.flags &&& rtr ≠ 0
  err : be32ToCpu msg.id &&& canErrFlag = 0
  standard : msg.flags &&& extid = 0 → (be32ToCpu msg.id &&& canErrMask).toNat < 2 ^ 11

/-- The condition on a record: its frame cannot be allocated, or has a clean identifier. -/
def RecordClean (urb : RxUrb) (k : Nat) : Prop :=
  (record urb k).type = typeCanFrame → urb.skb k = true → CleanId (record urb k)

/-- A callback that looks at its transfer, and the records of that have clean identifiers. -/
def TransferClean (urb : RxUrb) (device : RxDevice) : Prop :=
  device.present = true → urb.status = 0 → ∀ k, k < records urb → RecordClean urb k

/-- A frame that the socket layer passes to the driver. -/
structure ValidFrame where
  cf : CanFrame
  dlc : cf.canDlc ≤ 8
  err : cf.canId &&& canErrFlag = 0
  standard : cf.canId &&& canEffFlag = 0 → (cf.canId &&& canErrMask).toNat < 2 ^ 11

/-- A record with the contents of a transmitted message. -/
structure Returns (sent : TxMsg) (msg : RxMsg) : Prop where
  type : msg.type = typeCanFrame
  flags : msg.flags = sent.flags
  id : msg.id = sent.id
  dlc : msg.dlc = sent.dlc
  data : msg.data = sent.data

/-- What is expected of the frame that comes back: the same frame, without data if it is remote. -/
structure SameFrame (sent received : CanFrame) : Prop where
  id : received.canId = sent.canId
  dlc : received.canDlc = sent.canDlc
  data : ∀ i : Fin 8, received.data[i] =
    if sent.canId &&& canRtrFlag = 0 ∧ i.val < sent.canDlc then sent.data[i] else 0

/-- A bit of a byte of a word is a bit of the word. -/
theorem getLsbD_cpuToBe32 (value : BitVec 32) (byte : Fin 4) {i : Nat} (inside : i < 8) :
    (cpuToBe32 value)[byte].toBitVec.getLsbD i = value.getLsbD (24 - 8 * byte.val + i) := by
  -- The byte is cut out of the word.
  simp only [cpuToBe32, Fin.getElem_fin, Vector.getElem_ofFn, BitVec.getLsbD_setWidth,
    BitVec.getLsbD_ushiftRight, inside, decide_true, Bool.true_and]

/-- A word is found again in its bytes. -/
theorem be32ToCpu_cpuToBe32 (value : BitVec 32) : be32ToCpu (cpuToBe32 value) = value := by
  refine BitVec.eq_of_getLsbD_eq fun i inside => ?_
  simp only [be32ToCpu, BitVec.getLsbD_append]
  -- The bit is in one of the four bytes, the last of which is the lowest one.
  split
  · exact (getLsbD_cpuToBe32 value 3 (by assumption)).trans (congrArg _ (Nat.zero_add i))
  split
  · have index : 8 + (i - 8) = i := by omega
    exact (getLsbD_cpuToBe32 value 2 (by assumption)).trans (congrArg _ index)
  split
  · have index : 16 + (i - 8 - 8) = i := by omega
    exact (getLsbD_cpuToBe32 value 1 (by assumption)).trans (congrArg _ index)
  · have index : 24 + (i - 8 - 8 - 8) = i := by omega
    exact (getLsbD_cpuToBe32 value 0 (by omega)).trans (congrArg _ index)

/-- The identifier of a frame: the word of the record with the flags of the record. -/
def flagged (id : BitVec 32) (eff rtr : Bool) : BitVec 32 :=
  (id ||| if eff then canEffFlag else 0) ||| if rtr then canRtrFlag else 0

/-- The three flags are the three highest bits. -/
theorem and_canEffFlag (word : BitVec 32) : word &&& canEffFlag ≠ 0 ↔ word.getLsbD 31 = true :=
  @and_bit_ne_zero 32 word 31

/-- The flag of a remote frame is the bit below. -/
theorem and_canRtrFlag (word : BitVec 32) : word &&& canRtrFlag ≠ 0 ↔ word.getLsbD 30 = true :=
  @and_bit_ne_zero 32 word 30

/-- The flag of an error is the lowest of the three. -/
theorem and_canErrFlag (word : BitVec 32) : word &&& canErrFlag ≠ 0 ↔ word.getLsbD 29 = true :=
  @and_bit_ne_zero 32 word 29

/-- A bit of the identifier with its flags. -/
theorem getLsbD_flagged (id : BitVec 32) (eff rtr : Bool) (i : Nat) :
    (flagged id eff rtr).getLsbD i =
      (id.getLsbD i || (decide (i = 31) && eff) || (decide (i = 30) && rtr)) := by
  -- A flag that is given sets its bit, and one that is not given changes nothing.
  have flag (word : BitVec 32) {number : Nat} (inside : number < 32) (given : Bool) :
      (word ||| if given then bit number else 0).getLsbD i =
        (word.getLsbD i || (decide (i = number) && given)) := by
    cases given with
    | false =>
      show (word ||| 0#32).getLsbD i = _
      rw [BitVec.or_zero, Bool.and_false, Bool.or_false]
    | true => rw [if_pos rfl, getLsbD_set word inside, Bool.and_true]
  have high := flag id (by decide : 31 < 32) eff
  have low := flag (id ||| if eff then canEffFlag else 0) (by decide : 30 < 32) rtr
  exact low.trans (congrArg (· || _) high)

/-- A flag of the identifier is that of the word or that of the record. -/
theorem flagged_eff (id : BitVec 32) (eff rtr : Bool) :
    flagged id eff rtr &&& canEffFlag ≠ 0 ↔ id &&& canEffFlag ≠ 0 ∨ eff = true := by
  -- Only the one bit is looked at.
  rw [and_canEffFlag, and_canEffFlag, getLsbD_flagged, ← Bool.or_eq_true]
  simp

/-- So is the one of a remote frame. -/
theorem flagged_rtr (id : BitVec 32) (eff rtr : Bool) :
    flagged id eff rtr &&& canRtrFlag ≠ 0 ↔ id &&& canRtrFlag ≠ 0 ∨ rtr = true := by
  -- Only the one bit is looked at.
  rw [and_canRtrFlag, and_canRtrFlag, getLsbD_flagged, ← Bool.or_eq_true]
  simp

/-- The flag of an error is that of the word. -/
theorem flagged_err (id : BitVec 32) (eff rtr : Bool) :
    flagged id eff rtr &&& canErrFlag ≠ 0 ↔ id &&& canErrFlag ≠ 0 := by
  -- Only the one bit is looked at.
  rw [and_canErrFlag, and_canErrFlag, getLsbD_flagged]
  simp

/-- The flags are outside the mask of the identifier. -/
theorem flagged_and_canErrMask (id : BitVec 32) (eff rtr : Bool) :
    flagged id eff rtr &&& canErrMask = id &&& canErrMask := by
  -- Both flags are above the mask.
  have effOut : canEffFlag &&& canErrMask = 0 := by decide
  have rtrOut : canRtrFlag &&& canErrMask = 0 := by decide
  unfold flagged
  rw [BitVec.and_or_distrib_right, BitVec.and_or_distrib_right]
  cases eff <;> cases rtr <;> simp [effOut, rtrOut]

/-- The data branch puts the flags of the record into the word of its identifier. -/
theorem rxFrame_canId (msg : RxMsg) :
    (rxFrame msg).canId =
      flagged (be32ToCpu msg.id) (msg.flags &&& extid ≠ 0) (msg.flags &&& rtr ≠ 0) := by
  -- The cases are the two flags of the record.
  unfold rxFrame flagged
  simp only [decide_eq_true_eq]
  split_ifs
  · rfl
  · exact congrArg (· ||| canRtrFlag) (BitVec.or_zero).symm
  · exact (BitVec.or_zero).symm
  · exact ((BitVec.or_zero).trans BitVec.or_zero).symm

/-- The length that is delivered is at most eight. -/
theorem rxFrame_canDlc (msg : RxMsg) :
    (rxFrame msg).canDlc = getCanDlc (msg.dlc &&& 0xf).toNat := by
  -- Neither flag changes the length.
  unfold rxFrame
  split_ifs <;> rfl

/-- The data that is delivered is copied up to that length, and cleared for a remote frame. -/
theorem rxFrame_data (msg : RxMsg) :
    (rxFrame msg).data =
      if msg.flags &&& rtr ≠ 0 then cleared else memcpy (rxFrame msg).canDlc msg.data cleared := by
  -- Only the flag of a remote frame changes the data.
  rw [rxFrame_canDlc]
  unfold rxFrame
  split_ifs <;> rfl

/-- A copy takes the bytes below its length. -/
theorem get_memcpy (count : Nat) (source target : Vector UInt8 8) (i : Fin 8) :
    (memcpy count source target).get i = if i.val < count then source.get i else target.get i := by
  -- The copy is made byte by byte.
  show (memcpy count source target)[i.val] = _
  rw [memcpy, Vector.getElem_ofFn]
  rfl

/-- A cleared frame has no data. -/
theorem get_cleared (i : Fin 8) : cleared.get i = 0 :=
  Vector.getElem_replicate i.isLt

/-- The frame of a record is sanitised just when its identifier is clean. -/
theorem sanitised_iff (msg : RxMsg) :
    (Delivery.data msg (rxFrame msg)).Sanitised ↔ CleanId msg := by
  -- A frame is sanitised in its length, its identifier and the flags above it.
  have length : (rxFrame msg).canDlc ≤ 8 := by
    rw [rxFrame_canDlc]
    exact Nat.min_le_right _ _
  -- The length and the 29 bits need no condition; the flags are those of the record or of the word.
  have low : (be32ToCpu msg.id &&& canErrMask).toNat < 2 ^ 29 := by
    have mask : canErrMask.toNat = 2 ^ 29 - 1 := by decide
    rw [BitVec.toNat_and, mask, Nat.and_two_pow_sub_one_eq_mod]
    exact Nat.mod_lt _ (by decide)
  have err : (rxFrame msg).canId &&& canErrFlag = 0 ↔ be32ToCpu msg.id &&& canErrFlag = 0 := by
    rw [rxFrame_canId]
    exact not_iff_not.mp (flagged_err _ _ _)
  have eff : (rxFrame msg).canId &&& canEffFlag ≠ 0 ↔
      be32ToCpu msg.id &&& canEffFlag ≠ 0 ∨ msg.flags &&& extid ≠ 0 := by
    rw [rxFrame_canId, flagged_eff, decide_eq_true_eq]
  have remote : (rxFrame msg).canId &&& canRtrFlag ≠ 0 ↔
      be32ToCpu msg.id &&& canRtrFlag ≠ 0 ∨ msg.flags &&& rtr ≠ 0 := by
    rw [rxFrame_canId, flagged_rtr, decide_eq_true_eq]
  have id : (rxFrame msg).canId &&& canErrMask = be32ToCpu msg.id &&& canErrMask := by
    rw [rxFrame_canId, flagged_and_canErrMask]
  constructor
  · intro given
    rcases given with ⟨_, effGiven, rtrGiven, errGiven, range⟩
    refine ⟨fun set => effGiven.mp (eff.mpr (.inl set)),
      fun set => rtrGiven.mp (remote.mpr (.inl set)), err.mp errGiven, fun plain => ?_⟩
    rwa [if_neg fun set => effGiven.mp set plain, id] at range
  · intro clean
    have effGiven := eff.trans (or_iff_right_of_imp clean.eff)
    refine ⟨length, effGiven, remote.trans (or_iff_right_of_imp clean.rtr), err.mpr clean.err, ?_⟩
    rw [id]
    split
    · exact low
    · rename_i plain
      exact clean.standard (not_not.mp fun set => plain (effGiven.mpr set))

/-- A case of a switch passes nothing on when its two branches do not. -/
theorem netifRx_ite {condition : Prop} [Decidable condition] {before : RxDevice}
    {one other : CanFrame × RxDevice} (here : one.2.netifRx = before.netifRx)
    (otherwise : other.2.netifRx = before.netifRx) :
    (if condition then one else other).2.netifRx = before.netifRx := by
  -- Whichever branch is taken.
  split
  · exact here
  · exact otherwise

/-- The first switch of an error record passes nothing on. -/
theorem errState_netifRx (state : UInt8) (cf : CanFrame) (device : RxDevice) :
    (errState state cf device).2.netifRx = device.netifRx :=
  netifRx_ite rfl (netifRx_ite rfl (netifRx_ite rfl rfl))

/-- Nor does the second one, with its nine cases. -/
theorem errKind_netifRx (state txerr rxerr : UInt8) (cf : CanFrame) (device : RxDevice) :
    (errKind state txerr rxerr cf device).2.netifRx = device.netifRx := by
  -- Each of the nine cases fills the frame and the counters only.
  refine netifRx_ite rfl (netifRx_ite rfl (netifRx_ite rfl (netifRx_ite rfl ?_)))
  refine netifRx_ite rfl (netifRx_ite rfl (netifRx_ite rfl (netifRx_ite rfl ?_)))
  exact netifRx_ite rfl rfl

/-- What a callback adds to what was passed on is sanitised just under a condition. -/
def Adds (before after : RxDevice) (condition : Prop) : Prop :=
  ∃ deliveries, after.netifRx = before.netifRx ++ deliveries ∧
    ((∀ delivery ∈ deliveries, delivery.Sanitised) ↔ condition)

/-- Nothing is added. -/
theorem Adds.refl (device : RxDevice) {condition : Prop} (holds : condition) :
    Adds device device condition :=
  ⟨[], (List.append_nil _).symm, iff_of_true nofun holds⟩

/-- What is added in two steps is sanitised when both parts are. -/
theorem Adds.trans {first second third : RxDevice} {one other : Prop}
    (begun : Adds first second one) (ended : Adds second third other) :
    Adds first third (one ∧ other) := by
  -- What both parts deliver is put one behind the other.
  obtain ⟨front, added, clean⟩ := begun
  obtain ⟨back, later, also⟩ := ended
  refine ⟨front ++ back, by rw [later, added, List.append_assoc], ?_⟩
  rw [List.forall_mem_append, clean, also]

/-- An error record adds an error frame at most. -/
theorem rxErrMsg_adds (skb : Bool) (msg : RxMsg) (device : RxDevice) :
    Adds device (rxErrMsg skb msg device) True := by
  cases skb with
  | false => exact .refl device trivial
  | true =>
    -- Whatever the switches have made of it, one error frame is passed on.
    have passed : ∃ cf, (rxErrMsg true msg device).netifRx = device.netifRx ++ [.error cf] :=
      ⟨_, congrArg (· ++ [Delivery.error _])
        ((errKind_netifRx _ _ _ _ _).trans (errState_netifRx _ _ device))⟩
    obtain ⟨cf, added⟩ := passed
    refine ⟨_, added, iff_of_true (fun delivery member => ?_) trivial⟩
    rw [List.mem_singleton.mp member]
    trivial

/-- A record adds a frame of a clean identifier, or something else than a data frame. -/
theorem rxCanMsg_adds (skb : Bool) (msg : RxMsg) (device : RxDevice) :
    Adds device (rxCanMsg skb msg device)
      (msg.type = typeCanFrame → skb = true → CleanId msg) := by
  -- The cases are those of the callback: an error, a data record with an skb, and the others.
  unfold rxCanMsg
  split
  · rename_i error
    -- A record of an error is not a data record.
    have other : msg.type ≠ typeCanFrame := by
      rw [error.1]
      decide
    obtain ⟨added, shape, clean⟩ := rxErrMsg_adds skb msg device
    exact ⟨added, shape, clean.trans (iff_of_true trivial fun type => absurd type other)⟩
  · split
    · rename_i type
      cases skb with
      | false => exact .refl device fun _ => nofun
      | true =>
        refine ⟨[.data msg (rxFrame msg)], rfl, ?_⟩
        rw [List.forall_mem_singleton, sanitised_iff]
        exact ⟨fun clean _ _ => clean, fun clean => clean type rfl⟩
    · rename_i other
      exact .refl device fun type => absurd type other

/-- A turn of the loop inside the transfer takes the next complete record. -/
theorem readLoop_succ (urb : RxUrb) (turns k : Nat) (device : RxDevice) :
    readLoop urb (turns + 1) (k * rxMsgSize) device =
      if k < records urb then
        readLoop urb turns ((k + 1) * rxMsgSize) (rxCanMsg (urb.skb k) (record urb k) device)
      else .ok device := by
  -- The place is behind the records that were read, so the check compares their number.
  have size : 0 < rxMsgSize := by decide
  rw [readLoop]
  by_cases complete : k < records urb
  · have inside : (k + 1) * rxMsgSize ≤ urb.transfer.length :=
      (Nat.le_div_iff_mul_le size).mp complete
    rw [Nat.add_mul, Nat.one_mul] at inside
    -- A complete record is copied from inside the transfer, and the loop goes on behind it.
    have copied : copyBytes urb.transfer (k * rxMsgSize) rxMsgSize =
        .ok ((urb.transfer.drop (k * rxMsgSize)).take rxMsgSize) := by
      unfold copyBytes
      rw [if_pos (by rw [List.length_take, List.length_drop]; omega)]
    rw [if_pos complete, if_pos (by omega), if_neg (by omega), copied,
      Nat.mul_div_cancel _ size, Nat.add_mul, Nat.one_mul]
    rfl
  · -- What is left is less than a record, or nothing.
    have short : urb.transfer.length < (k + 1) * rxMsgSize :=
      (Nat.div_lt_iff_lt_mul size).mp (Nat.lt_succ_of_le (Nat.not_lt.mp complete))
    rw [Nat.add_mul, Nat.one_mul] at short
    rw [if_neg complete]
    by_cases rest : k * rxMsgSize < urb.transfer.length
    · rw [if_pos rest, if_pos (by omega)]
    · rw [if_neg rest]

/-- The loop reads the complete records of the transfer, and ends. -/
theorem readLoop_adds (urb : RxUrb) : ∀ (turns k : Nat) (device : RxDevice),
    records urb - k < turns → ∃ after, readLoop urb turns (k * rxMsgSize) device = .ok after ∧
      Adds device after (∀ number, k ≤ number → number < records urb → RecordClean urb number) := by
  -- The induction is on the turns that are left, each of which takes one record.
  intro turns
  induction turns with
  | zero => exact fun k device enough => absurd enough (Nat.not_lt_zero _)
  | succ turns ih =>
    intro k device enough
    rw [readLoop_succ]
    by_cases complete : k < records urb
    · obtain ⟨after, read, later⟩ :=
        ih (k + 1) (rxCanMsg (urb.skb k) (record urb k) device) (by omega)
      rw [if_pos complete]
      refine ⟨after, read, ?_⟩
      obtain ⟨deliveries, shape, clean⟩ :=
        (rxCanMsg_adds (urb.skb k) (record urb k) device).trans later
      refine ⟨deliveries, shape, clean.trans ⟨fun both number from_ inside => ?_, fun all => ?_⟩⟩
      · rcases Nat.eq_or_lt_of_le from_ with rfl | above
        · exact both.1
        · exact both.2 number above inside
      · exact ⟨all k (Nat.le_refl k) complete, fun number above => all number (by omega)⟩
    · rw [if_neg complete]
      exact ⟨device, rfl, .refl device fun number _ _ => by omega⟩

/-- Detaching the interface passes nothing on. -/
theorem resubmitUrb_netifRx (urb : RxUrb) (device : RxDevice) :
    (resubmitUrb urb device).netifRx = device.netifRx := by
  -- The interface may be detached, and nothing else is touched.
  unfold resubmitUrb
  split <;> rfl

/-- A callback reads inside the transfer; what it adds is sanitised just when it is clean. -/
theorem readIntCallback_adds (urb : RxUrb) (device : RxDevice) :
    ∃ after, readIntCallback urb device = .ok after ∧
      Adds device after (TransferClean urb device) := by
  -- An absent interface and a failed URB deliver nothing, else the records are read one by one.
  unfold readIntCallback
  by_cases present : device.present = true
  · rw [present]
    by_cases success : urb.status = 0
    · -- There are no more records than bytes, so the turns that the loop is given are enough.
      have few : records urb - 0 < urb.transfer.length + 1 :=
        Nat.lt_succ_of_le (Nat.div_le_self _ _)
      obtain ⟨after, read, deliveries, shape, clean⟩ := readLoop_adds urb _ 0 device few
      rw [Nat.zero_mul] at read
      rw [if_neg (by decide), if_pos success, read]
      have added := (resubmitUrb_netifRx urb after).trans shape
      refine ⟨resubmitUrb urb after, rfl, deliveries, added, ?_⟩
      exact clean.trans ⟨fun all _ _ k => all k (Nat.zero_le k),
        fun all k _ => all present success k⟩
    · -- A transfer that failed is not read, whether it is resubmitted or not.
      have unread : TransferClean urb device := fun _ status => absurd status success
      rw [if_neg (by decide), if_neg success]
      split
      · exact ⟨device, rfl, .refl device unread⟩
      · refine ⟨resubmitUrb urb device, rfl, [], ?_, iff_of_true nofun unread⟩
        rw [resubmitUrb_netifRx, List.append_nil]
  · rw [if_pos (by simpa using present)]
    exact ⟨device, rfl, .refl device fun here => absurd here present⟩

/-- The flags of a message are those of the frame. -/
theorem txMsg_flags (cf : CanFrame) :
    ((txMsg cf).flags &&& extid ≠ 0 ↔ cf.canId &&& canEffFlag ≠ 0) ∧
      ((txMsg cf).flags &&& rtr ≠ 0 ↔ cf.canId &&& canRtrFlag ≠ 0) := by
  unfold txMsg
  dsimp only
  -- Each of the two flags is set or not, and the other bits of the flags are never set.
  split_ifs with eff remote remote
  · exact ⟨iff_of_true (by decide) eff, iff_of_true (by decide) remote⟩
  · exact ⟨iff_of_true (by decide) eff, iff_of_false (by decide) remote⟩
  · exact ⟨iff_of_false (by decide) eff, iff_of_true (by decide) remote⟩
  · exact ⟨iff_of_false (by decide) eff, iff_of_false (by decide) remote⟩

/-- The identifier of a frame is made of its lower bits and its flags. -/
theorem flagged_canErrMask {id : BitVec 32} (err : id &&& canErrFlag = 0) :
    flagged (id &&& canErrMask) (id &&& canEffFlag ≠ 0) (id &&& canRtrFlag ≠ 0) = id := by
  -- The two words agree in every bit.
  have clear : id.getLsbD 29 = false := by
    rw [← Bool.not_eq_true, ← and_canErrFlag]
    exact not_not.mpr err
  have mask : ∀ i, canErrMask.getLsbD i = (decide (i < 32) && decide (i < 29)) := by
    intro i
    show (BitVec.ofNat 32 (2 ^ 29 - 1)).getLsbD i = _
    rw [BitVec.getLsbD_ofNat, Nat.testBit_two_pow_sub_one]
  refine BitVec.eq_of_getLsbD_eq fun i inside => ?_
  rw [getLsbD_flagged, BitVec.getLsbD_and, mask]
  simp only [and_canEffFlag, and_canRtrFlag, Bool.decide_eq_true]
  -- Above the mask there are the three flags, and the flag of an error is not set.
  by_cases low : i < 29
  · simp [low, inside, show i ≠ 31 by omega, show i ≠ 30 by omega]
  · obtain rfl | rfl | rfl : i = 29 ∨ i = 30 ∨ i = 31 := by omega
    · rw [clear]
      rfl
    · simp
    · simp

/-- A frame that the device sends back is received as it was sent. -/
theorem rxFrame_sameFrame (frame : ValidFrame) {msg : RxMsg} (back : Returns (txMsg frame.cf) msg) :
    SameFrame frame.cf (rxFrame msg) := by
  -- The flags of the record say how wide the identifier is, and the rest is copied.
  obtain ⟨eff, remote⟩ := txMsg_flags frame.cf
  have word : be32ToCpu msg.id = frame.cf.canId &&& canErrMask := by
    rw [back.id]
    exact be32ToCpu_cpuToBe32 _
  have small : (UInt8.ofNat frame.cf.canDlc &&& 0xf).toNat = frame.cf.canDlc := by
    have valid := frame.dlc
    have mask : (0xf : UInt8).toNat = 2 ^ 4 - 1 := rfl
    rw [UInt8.toNat_and, mask, Nat.and_two_pow_sub_one_eq_mod, UInt8.toNat_ofNat']
    omega
  have length : getCanDlc (msg.dlc &&& 0xf).toNat = frame.cf.canDlc := by
    rw [back.dlc]
    show getCanDlc (UInt8.ofNat frame.cf.canDlc &&& 0xf).toNat = frame.cf.canDlc
    rw [small]
    exact Nat.min_eq_left frame.dlc
  refine ⟨?_, (rxFrame_canDlc msg).trans length, fun i => ?_⟩
  · rw [rxFrame_canId, word, back.flags]
    simp only [eff, remote]
    exact flagged_canErrMask frame.err
  · show (rxFrame msg).data.get i = if _ then frame.cf.data.get i else 0
    rw [rxFrame_data, (rxFrame_canDlc msg).trans length, back.flags, back.data]
    by_cases plain : frame.cf.canId &&& canRtrFlag = 0
    · rw [if_neg fun set => remote.mp set plain, get_memcpy]
      show (if i.val < _ then (memcpy _ _ _).get i else cleared.get i) = _
      rw [get_memcpy, get_cleared]
      -- Both copies stop at the length of the frame.
      by_cases inside : i.val < frame.cf.canDlc
      · rw [if_pos inside, if_pos inside, if_pos ⟨plain, inside⟩]
      · rw [if_neg inside, if_neg fun both => inside both.2]
    · rw [if_pos (remote.mpr plain), get_cleared, if_neg fun both => plain both.1]

/--
Frames come back as they were sent, and a callback passes on sanitised frames just when the
identifiers of its data records are clean.

Every transfer is read inside its length; the frames that come back are any that are valid.
-/
theorem framesSanitised_iff (urb : RxUrb) (device : RxDevice) :
    (∀ (frame : ValidFrame) (msg : RxMsg), Returns (txMsg frame.cf) msg → ∃ received,
        (rxCanMsg true msg device).netifRx = device.netifRx ++ [.data msg received] ∧
          SameFrame frame.cf received) ∧
      (Sanitises urb device ↔ TransferClean urb device) := by
  -- The round trip is one frame's, and the condition is that of each record that is read.
  refine ⟨fun frame msg back => ⟨rxFrame msg, ?_, rxFrame_sameFrame frame back⟩, ?_⟩
  · have noError : ¬ (msg.type = typeErrorFrame ∧ msg.flags = errFlag) := by
      rw [back.type]
      exact fun both => absurd both.1 (by decide)
    unfold rxCanMsg
    rw [if_neg noError, if_pos back.type]
    rfl
  · obtain ⟨after, read, deliveries, shape, clean⟩ := readIntCallback_adds urb device
    rw [← clean]
    constructor
    · intro sanitises
      obtain ⟨other, added, again, split, good⟩ := sanitises
      -- The callback has one result, and what it adds is determined by that.
      rw [read, Except.ok.injEq] at again
      subst again
      rwa [List.append_cancel_left (shape.symm.trans split)]
    · exact fun good => ⟨after, deliveries, read, shape, good⟩

/-- A transfer of one data record, whose identifier has the flag of an error frame. -/
def forgedError : RxUrb where
  status := 0
  transfer :=
    [0x55, 0x00, 0x00, 0x20, 0x00, 0x01, 0x23, 0x00, 0, 0, 0, 0, 0, 0, 0, 0, 0, 0, 0, 0, 0xaa]
  skb _ := true
  submit := 0

/-- An interface that has just been opened. -/
def RxDevice.opened : RxDevice where
  present := true
  canState := .errorActive
  bec := (0, 0)
  rxPackets := 0
  rxBytes := 0
  rxErrors := 0
  txErrors := 0
  rxOverErrors := 0
  statBusOff := 0
  statBusError := 0
  statErrorWarning := 0
  statErrorPassive := 0
  busOffCalls := 0
  netifRx := []

/-- The frame of that record is passed on as an error frame. -/
theorem forgedError_not_sanitised :
    ¬ ∀ (urb : RxUrb) (device : RxDevice), Sanitises urb device := by
  -- The one record of the transfer sets the flag of an error in its identifier.
  intro claim
  obtain ⟨after, deliveries, read, added, clean⟩ := claim forgedError .opened
  have passed : readIntCallback forgedError .opened = .ok
      (netifRx (.data (record forgedError 0) (rxFrame (record forgedError 0))) 0 .opened) := by rfl
  rw [passed, Except.ok.injEq] at read
  subst read
  have first := clean _ (List.append_cancel_left added ▸ List.mem_singleton_self _)
  exact absurd first.2.2.2.1 (by decide)

end OpenwrtMisc.Mcp2515Usb
