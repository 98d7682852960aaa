import OpenwrtMisc.Lib.Machine
import OpenwrtMisc.Lib.Ring

/-! The transmit ring of the Atheros high-speed UART, whose two counters are never reset. -/

namespace OpenwrtMisc.AthHsUart

/-- The size of `buf`. -/
def bufSize : Nat := 1024

/--
The ring of `ath_hs_uart_softc_t`, and the characters that went through `UartPut`.

`accepted` only records what was put into the ring.
-/
structure Softc where
  buf : Nat → UInt8
  put : BitVec 32
  get : BitVec 32
  /-- The characters that were passed to `UartPut`, the first one first. -/
  sent : List UInt8
  /-- The characters that were put into the ring, the first one first. -/
  accepted : List UInt8

/-- The zeroed ring that the driver starts with. -/
def Softc.zeroed : Softc where
  buf _ := 0
  put := 0
  get := 0
  sent := []
  accepted := []

/-- `hs_set_char`. -/
def hsSetChar (sc : Softc) (c : UInt8) : Softc :=
  { sc with
    buf := Function.update sc.buf (sc.put.toNat % bufSize) c
    put := sc.put + 1
    accepted := sc.accepted ++ [c] }

/-- `UartPut(hs_get_char(sc))`. -/
def uartPutGetChar (sc : Softc) : Softc :=
  { sc with
    get := sc.get + 1
    sent := sc.sent ++ [sc.buf (sc.get.toNat % bufSize)] }

/-- `ath_hs_uart_put_char`, which does not look for room. -/
def putChar (sc : Softc) (ch : UInt8) : Softc := hsSetChar sc ch

/-- `ath_hs_uart_chars_in_buffer`, as the `int` that it returns. -/
def charsInBuffer (sc : Softc) : BitVec 32 := sc.put - sc.get

/-- `ath_hs_uart_write_room`, as the `int` that it returns. -/
def writeRoom (sc : Softc) : BitVec 32 := BitVec.ofNat 32 bufSize - charsInBuffer sc

/-- So many turns of the loop of `ath_hs_uart_flush_chars`, fewer when its condition fails. -/
def flushLoop : Nat → Softc → Softc
  | 0, sc => sc
  | turns + 1, sc => if sc.get < sc.put then flushLoop turns (uartPutGetChar sc) else sc

/-- `ath_hs_uart_flush_chars`, whose loop cannot take more turns than `get` is below `put`. -/
def flushChars (sc : Softc) : Softc := flushLoop (sc.put.toNat - sc.get.toNat) sc

/-- The number of characters that `ath_hs_uart_write` takes, and returns. -/
def writeCount (sc : Softc) (buf : List UInt8) : Int :=
  if (buf.length : Int) > (writeRoom sc).toInt then (writeRoom sc).toInt else buf.length

/-- `ath_hs_uart_write`; a negative count takes no character. -/
def write (sc : Softc) (buf : List UInt8) : Softc :=
  flushChars ((buf.take (writeCount sc buf).toNat).foldl hsSetChar sc)

/-- The calls of the tty layer that touch the ring. -/
inductive Call where
  | putChar (ch : UInt8)
  | write (buf : List UInt8)
  | flushChars
  deriving DecidableEq, Repr

/-- One call. -/
def callStep (sc : Softc) : Call → Softc
  | .putChar ch => putChar sc ch
  | .write buf => write sc buf
  | .flushChars => flushChars sc

/-- The driver from its load on. -/
def uartMachine : Machine Softc Call where
  start := Softc.zeroed
  step sc call := some (callStep sc call)

/-- What is expected of the ring after a call. -/
structure RingSound (sc : Softc) : Prop where
  /-- The counters are at most the size of the ring apart. -/
  bounded : (sc.put - sc.get).toNat ≤ bufSize
  /-- Every accepted character was sent, in order, or is still in its cell. -/
  kept : sc.sent ++ ringContents bufSize sc.buf sc.get.toNat (sc.put - sc.get).toNat = sc.accepted

/-- What is expected of a call: a sound ring, and an empty one after a flush. -/
structure CallSound (before : Softc) (call : Call) (next : Softc) : Prop where
  sound : RingSound next
  /-- The characters that were accepted before stay the first ones. -/
  order : before.accepted <+: next.accepted
  /-- A flush, and the flush at the end of a write, return with the ring empty. -/
  flushed : (∀ ch, call ≠ .putChar ch) → next.put = next.get

/-- The characters that are in the ring. -/
def Softc.pending (sc : Softc) : Nat := sc.accepted.length - sc.sent.length

/-- A call with room for its character, or that ends before the counter of characters wraps. -/
def CallFits (sc : Softc) : Call → Prop
  | .putChar _ => sc.pending < bufSize
  | .write buf => sc.accepted.length + min buf.length (bufSize - sc.pending) < 2 ^ 32
  | .flushChars => sc.accepted.length < 2 ^ 32

/-- The counters follow the two records, and the ring holds what lies between them. -/
structure RingInv (sc : Softc) : Prop where
  put : sc.put = BitVec.ofNat 32 sc.accepted.length
  get : sc.get = BitVec.ofNat 32 sc.sent.length
  /-- The counter of sent characters has not wrapped. -/
  low : sc.sent.length < 2 ^ 32
  room : sc.pending ≤ bufSize
  kept : sc.sent ++ ringContents bufSize sc.buf sc.sent.length sc.pending = sc.accepted

/-- The invariant holds of the zeroed ring. -/
theorem ringInv_zeroed : RingInv Softc.zeroed where
  put := rfl
  get := rfl
  low := by decide
  -- No character was put in and none sent.
  room := by decide
  kept := rfl

namespace RingInv

variable {sc : Softc} (inv : RingInv sc)
include inv

/-- What is accepted is what was sent and what is pending. -/
theorem length_accepted : sc.sent.length + sc.pending = sc.accepted.length := by
  -- The ring holds as many characters as are pending, whichever they are.
  have lengths := congrArg List.length inv.kept
  rwa [List.length_append, length_ringContents] at lengths

/-- The get counter is the number of sent characters. -/
theorem toNat_get : sc.get.toNat = sc.sent.length := by
  -- Fewer than 2^32 characters were sent.
  rw [inv.get, BitVec.toNat_ofNat]
  exact Nat.mod_eq_of_lt inv.low

/-- The put counter is the number of accepted characters, wrapped at its width. -/
theorem toNat_put : sc.put.toNat = sc.accepted.length % 2 ^ 32 := by
  rw [inv.put, BitVec.toNat_ofNat]

/-- The difference of the counters is the number of pending characters. -/
theorem toNat_sub : (sc.put - sc.get).toNat = sc.pending := by
  have total := inv.length_accepted
  have low := inv.low
  have room := inv.room
  -- Even when only the put counter has wrapped, the difference comes out right.
  rw [BitVec.toNat_sub, inv.toNat_put, inv.toNat_get]
  simp only [bufSize] at room
  omega

/-- The room that a write sees is the rest of the ring. -/
theorem toInt_writeRoom : (writeRoom sc).toInt = (bufSize : Int) - sc.pending := by
  have room := inv.room
  have value : (writeRoom sc).toNat = bufSize - sc.pending := by
    rw [writeRoom, charsInBuffer, BitVec.toNat_sub, inv.toNat_sub, BitVec.toNat_ofNat]
    simp only [bufSize] at room ⊢
    omega
  -- The room is far below the sign bit.
  simp only [bufSize] at room value ⊢
  rw [BitVec.toInt_eq_toNat_of_lt (by omega), value]
  exact Int.ofNat_sub room

/-- A write takes as many characters as there are, and as the ring has room for. -/
theorem toNat_writeCount (buf : List UInt8) :
    (writeCount sc buf).toNat = min buf.length (bufSize - sc.pending) := by
  have room := inv.room
  rw [writeCount, inv.toInt_writeRoom]
  -- A full ring gives a count of zero, not a negative one.
  split <;> omega

/-- The ring of the invariant is sound. -/
theorem sound : RingSound sc where
  bounded := by rw [inv.toNat_sub]; exact inv.room
  kept := by rw [inv.toNat_sub, inv.toNat_get]; exact inv.kept

/-- One more character is pending after it was put into the ring. -/
theorem pending_hsSetChar (c : UInt8) : (AthHsUart.hsSetChar sc c).pending = sc.pending + 1 := by
  -- One more was accepted, and as many were sent.
  have total := inv.length_accepted
  show (sc.accepted ++ [c]).length - sc.sent.length = _
  rw [List.length_append, List.length_singleton]
  omega

/-- A character that finds room is put behind the pending ones. -/
theorem hsSetChar (free : sc.pending < bufSize) (c : UInt8) : RingInv (hsSetChar sc c) := by
  have total := inv.length_accepted
  -- The new character counts as accepted, and as pending.
  have accepted : (AthHsUart.hsSetChar sc c).accepted = sc.accepted ++ [c] := rfl
  have sent : (AthHsUart.hsSetChar sc c).sent = sc.sent := rfl
  have pending := inv.pending_hsSetChar c
  -- The put counter selects the cell behind the pending ones, wrapped or not.
  have cell : sc.put.toNat % bufSize = (sc.sent.length + sc.pending) % bufSize := by
    rw [inv.toNat_put, total]
    exact Nat.mod_mod_of_dvd _ (by decide)
  refine
    { put := ?_
      get := inv.get
      low := inv.low
      room := by rw [pending]; exact free
      kept := ?_ }
  · show sc.put + 1 = _
    rw [accepted, List.length_append, List.length_singleton, inv.put]
    exact (BitVec.ofNat_add _ _).symm
  · rw [pending, sent, accepted, ← inv.kept, List.append_assoc]
    show sc.sent ++ ringContents bufSize (Function.update sc.buf (sc.put.toNat % bufSize) c)
      sc.sent.length (sc.pending + 1) = _
    rw [cell, ringContents_put _ free]

/-- Characters that all find room are put behind the pending ones. -/
theorem setChars (chars : List UInt8) (fits : sc.pending + chars.length ≤ bufSize) :
    RingInv (chars.foldl AthHsUart.hsSetChar sc) ∧
      (chars.foldl AthHsUart.hsSetChar sc).accepted = sc.accepted ++ chars ∧
      (chars.foldl AthHsUart.hsSetChar sc).sent = sc.sent := by
  -- Each turn of the loop leaves one character fewer and one cell fewer.
  induction chars generalizing sc with
  | nil => exact ⟨inv, (List.append_nil _).symm, rfl⟩
  | cons c rest ih =>
    rw [List.length_cons] at fits
    have next := inv.hsSetChar (by omega) c
    have pending := inv.pending_hsSetChar c
    obtain ⟨last, accepted, sent⟩ := ih next (by omega)
    refine ⟨last, ?_, sent⟩
    rw [List.foldl_cons, accepted]
    exact List.append_assoc sc.accepted [c] rest

/-- One character fewer is pending after a turn of the flush loop. -/
theorem pending_uartPutGetChar : (AthHsUart.uartPutGetChar sc).pending = sc.pending - 1 := by
  -- One more was sent, and as many were accepted.
  have total := inv.length_accepted
  show sc.accepted.length - (sc.sent ++ [_]).length = _
  rw [List.length_append, List.length_singleton]
  omega

/-- A turn of the flush loop sends the oldest pending character. -/
theorem uartPutGetChar (waiting : 0 < sc.pending) (low : sc.sent.length + 1 < 2 ^ 32) :
    RingInv (uartPutGetChar sc) := by
  -- There is a first pending character, and the ring still has it.
  have total := inv.length_accepted
  obtain ⟨count, more⟩ := Nat.exists_eq_add_of_lt waiting
  rw [Nat.zero_add] at more
  -- The cell of the get counter is the first one of the pending stretch.
  have sent : (AthHsUart.uartPutGetChar sc).sent =
      sc.sent ++ [sc.buf (sc.sent.length % bufSize)] := by
    rw [← inv.toNat_get]
    rfl
  have length : (AthHsUart.uartPutGetChar sc).sent.length = sc.sent.length + 1 := by
    rw [sent, List.length_append, List.length_singleton]
  have pending : (AthHsUart.uartPutGetChar sc).pending = count := by
    rw [inv.pending_uartPutGetChar, more]
    exact Nat.add_sub_cancel count 1
  refine
    { put := inv.put
      get := ?_
      low := by rw [length]; exact low
      room := by rw [pending]; have room := inv.room; omega
      kept := ?_ }
  · show sc.get + 1 = _
    rw [length, inv.get]
    exact (BitVec.ofNat_add _ _).symm
  · rw [pending, length, sent, List.append_assoc]
    have kept := inv.kept
    rw [more, ringContents_succ] at kept
    exact kept

end RingInv

/-- The flush loop sends all pending characters as long as the put counter has not wrapped. -/
theorem flushLoop_sent : ∀ (turns : Nat) {sc : Softc}, RingInv sc → sc.pending = turns →
    sc.accepted.length < 2 ^ 32 →
    RingInv (flushLoop turns sc) ∧ (flushLoop turns sc).accepted = sc.accepted ∧
      (flushLoop turns sc).sent = sc.accepted := by
  -- The induction is on the pending characters, of which each turn sends one.
  intro turns
  induction turns with
  | zero =>
    intro sc inv none _
    have kept := inv.kept
    rw [none, ringContents_zero, List.append_nil] at kept
    exact ⟨inv, rfl, kept⟩
  | succ turns ih =>
    intro sc inv pending below
    have total := inv.length_accepted
    -- A pending character keeps the get counter below the put counter.
    have ahead : sc.get < sc.put := by
      rw [BitVec.lt_def, inv.toNat_get, inv.toNat_put, Nat.mod_eq_of_lt below]
      omega
    have next := inv.uartPutGetChar (by omega) (by omega)
    have fewer : (uartPutGetChar sc).pending = turns := by
      rw [inv.pending_uartPutGetChar, pending]
      exact Nat.add_sub_cancel turns 1
    rw [flushLoop, if_pos ahead]
    exact ih next fewer below

/-- A flush before the put counter wraps sends everything and leaves the ring empty. -/
theorem flushChars_sent {sc : Softc} (inv : RingInv sc) (below : sc.accepted.length < 2 ^ 32) :
    RingInv (flushChars sc) ∧ (flushChars sc).accepted = sc.accepted ∧
      (flushChars sc).put = (flushChars sc).get := by
  have total := inv.length_accepted
  -- Without a wrap the difference of the two values is what is pending.
  have turns : sc.put.toNat - sc.get.toNat = sc.pending := by
    rw [inv.toNat_put, inv.toNat_get, Nat.mod_eq_of_lt below]
    omega
  rw [flushChars, turns]
  obtain ⟨flushed, accepted, sent⟩ := flushLoop_sent sc.pending inv rfl below
  refine ⟨flushed, accepted, ?_⟩
  rw [flushed.put, flushed.get, sent, accepted]

/-- A flush after the put counter has wrapped does nothing, although characters are pending. -/
theorem flushChars_wrapped {sc : Softc} (inv : RingInv sc)
    (wrapped : 2 ^ 32 ≤ sc.accepted.length) :
    flushChars sc = sc ∧ sc.put ≠ sc.get := by
  -- The condition of the loop compares the counters as they are.
  have total := inv.length_accepted
  have low := inv.low
  have room := inv.room
  simp only [bufSize] at room
  -- The wrapped counter is small, and the other one is about to wrap.
  have behind : sc.put.toNat < sc.get.toNat := by
    rw [inv.toNat_put, inv.toNat_get]
    omega
  constructor
  · rw [flushChars, Nat.sub_eq_zero_of_le (Nat.le_of_lt behind), flushLoop]
  · intro same
    rw [same] at behind
    exact Nat.lt_irrefl _ behind

/-- The turns that a flush is given are enough: it ends when its condition fails. -/
theorem not_get_lt_put_flushChars (sc : Softc) : ¬ (flushChars sc).get < (flushChars sc).put := by
  rw [flushChars]
  generalize turns : sc.put.toNat - sc.get.toNat = count
  -- Each turn brings the get counter one closer to the put counter.
  induction count generalizing sc with
  | zero =>
    rw [flushLoop, BitVec.lt_def]
    omega
  | succ count ih =>
    rw [flushLoop]
    by_cases ahead : sc.get < sc.put
    · rw [if_pos ahead]
      apply ih
      have bound := sc.put.isLt
      have next : (sc.get + 1).toNat = sc.get.toNat + 1 := by
        rw [BitVec.lt_def] at ahead
        have one : (1 : BitVec 32).toNat = 1 := rfl
        rw [BitVec.toNat_add, one]
        exact Nat.mod_eq_of_lt (by omega)
      show sc.put.toNat - (sc.get + 1).toNat = count
      rw [next]
      omega
    · rw [if_neg ahead]
      exact ahead

/-- The ring after the characters of a write were put into it, and before the flush. -/
theorem write_filled {sc : Softc} (inv : RingInv sc) (buf : List UInt8) :
    ∃ filled, write sc buf = flushChars filled ∧ RingInv filled ∧
      sc.accepted <+: filled.accepted ∧
      filled.accepted.length = sc.accepted.length + min buf.length (bufSize - sc.pending) := by
  have count := inv.toNat_writeCount buf
  have room := inv.room
  -- The loop takes no more characters than there is room for.
  have length : (buf.take (writeCount sc buf).toNat).length =
      min buf.length (bufSize - sc.pending) := by
    rw [List.length_take, count]
    omega
  obtain ⟨filled, accepted, _⟩ := inv.setChars (buf.take (writeCount sc buf).toNat) (by omega)
  refine ⟨_, rfl, filled, ?_, ?_⟩
  · rw [accepted]
    exact List.prefix_append _ _
  · rw [accepted, List.length_append, length]

/-- A call that fits keeps the invariant and does what is expected of it. -/
theorem callStep_fits {sc : Softc} {call : Call} (inv : RingInv sc) (fits : CallFits sc call) :
    RingInv (callStep sc call) ∧ CallSound sc call (callStep sc call) := by
  -- The cases are the calls.
  cases call with
  | putChar ch =>
    -- Putting one character flushes nothing.
    have next : RingInv (callStep sc (.putChar ch)) := inv.hsSetChar fits ch
    exact ⟨next, next.sound, List.prefix_append _ _, fun other => absurd rfl (other ch)⟩
  | write buf =>
    -- The characters are put first, and then all that is pending is sent.
    obtain ⟨filled, same, full, order, length⟩ := write_filled inv buf
    obtain ⟨next, accepted, empty⟩ := flushChars_sent full (by rw [length]; exact fits)
    rw [callStep, same]
    refine ⟨next, next.sound, ?_, fun _ => empty⟩
    rw [accepted]
    exact order
  | flushChars =>
    obtain ⟨next, accepted, empty⟩ := flushChars_sent inv fits
    refine ⟨next, next.sound, ?_, fun _ => empty⟩
    show sc.accepted <+: (flushChars sc).accepted
    exact accepted ▸ List.prefix_refl _

/-- A call that does what is expected of it fits. -/
theorem callFits_of_sound {sc : Softc} {call : Call} (inv : RingInv sc)
    (sound : CallSound sc call (callStep sc call)) : CallFits sc call := by
  -- The cases are the calls, each of which breaks something when it does not fit.
  cases call with
  | putChar ch =>
    -- In a full ring the counters would be more than its size apart.
    have room := inv.room
    by_contra full
    have pending : sc.pending = bufSize := by
      simp only [CallFits] at full
      omega
    have apart : (sc.put + 1 - sc.get).toNat = bufSize + 1 := by
      have difference : sc.put + 1 - sc.get = (sc.put - sc.get) + 1 := by
        rw [BitVec.sub_eq_add_neg, BitVec.sub_eq_add_neg, BitVec.add_assoc, BitVec.add_assoc,
          BitVec.add_comm 1]
      rw [difference, BitVec.toNat_add, inv.toNat_sub, pending]
      rfl
    have bounded : (sc.put + 1 - sc.get).toNat ≤ bufSize := sound.sound.bounded
    omega
  | write buf =>
    -- A flush that does nothing leaves the characters of the write pending.
    obtain ⟨filled, same, full, _, length⟩ := write_filled inv buf
    by_contra beyond
    simp only [CallFits, ← length, Nat.not_lt] at beyond
    obtain ⟨stuck, apart⟩ := flushChars_wrapped full beyond
    have flushed := sound.flushed fun _ => nofun
    rw [callStep, same, stuck] at flushed
    exact apart flushed
  | flushChars =>
    by_contra beyond
    simp only [CallFits, Nat.not_lt] at beyond
    -- The counters differ after the wrap, and the flush returns at once.
    obtain ⟨stuck, apart⟩ := flushChars_wrapped inv beyond
    have flushed := sound.flushed fun _ => nofun
    rw [callStep, stuck] at flushed
    exact apart flushed

/-- The ring is a queue along a run exactly when every call of the run fits. -/
theorem ringSound_iff_fits (calls : List Call) :
    uartMachine.Along CallSound Softc.zeroed calls ↔
      uartMachine.Along (fun sc call _ => CallFits sc call) Softc.zeroed calls := by
  -- Both directions carry the invariant from call to call.
  apply Machine.along_iff_condition ?_ ?_ calls Softc.zeroed ringInv_zeroed
  · intro sc call next inv fits stepped
    cases stepped
    exact callStep_fits inv fits
  · intro sc call next inv sound stepped
    cases stepped
    exact callFits_of_sound inv sound

/-- Characters that are put one by one are counted whether there is room or not. -/
theorem exec_putChars (ch : UInt8) (count : Nat) : ∀ sc : Softc, ∃ next : Softc,
    uartMachine.exec sc (List.replicate count (.putChar ch)) = some next ∧
      next.put = sc.put + BitVec.ofNat 32 count ∧ next.get = sc.get := by
  induction count with
  | zero => intro sc; exact ⟨sc, rfl, (BitVec.add_zero _).symm, rfl⟩
  | succ count ih =>
    intro sc
    -- No character is refused, and only the index of the next one moves.
    obtain ⟨next, ran, put, get⟩ := ih (putChar sc ch)
    refine ⟨next, ran, ?_, get⟩
    rw [put]
    show sc.put + 1 + BitVec.ofNat 32 count = _
    rw [BitVec.add_assoc, Nat.add_comm count 1, BitVec.ofNat_add]
    rfl

/-- The 1025th character that is put without a flush overwrites the first one. -/
theorem putChars_not_sound :
    ¬ ∀ calls : List Call, uartMachine.Along CallSound Softc.zeroed calls := by
  intro claim
  obtain ⟨full, ran, put, get⟩ := exec_putChars 0x61 1024 Softc.zeroed
  -- After 1024 characters the ring is full, and nothing refuses one more.
  generalize List.replicate 1024 (Call.putChar 0x61) = calls at ran
  have stepped : uartMachine.step full (.putChar 0x61) = some (putChar full 0x61) := rfl
  have sound := (claim (calls ++ [.putChar 0x61])).transition ran stepped
  have bounded : (full.put + 1 - full.get).toNat ≤ bufSize := sound.sound.bounded
  have apart : full.put + 1 - full.get = BitVec.ofNat 32 1025 := by
    rw [put, get]
    rfl
  rw [apart] at bounded
  exact absurd bounded (by decide)

end OpenwrtMisc.AthHsUart
