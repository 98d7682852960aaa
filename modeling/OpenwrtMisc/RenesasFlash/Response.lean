import OpenwrtMisc.RenesasFlash.Command

/-! How a response is read, byte by byte, and what is noticed of the faults in it. -/

namespace OpenwrtMisc.RenesasFlash

open Ber

/-- A byte is what a read returns, unless the timeout comes first. -/
theorem serialRead_of_some {line : Nat → Option UInt8} {port : Port} {ch : UInt8}
    (read : line port.place = some ch) :
    serialRead line port = ((ch.toNat : Int), { port with place := port.place + 1 }) := by
  -- The place moves on by one read.
  rw [serialRead, read]
  rfl

/-- A read that runs into the timeout. -/
theorem serialRead_of_none {line : Nat → Option UInt8} {port : Port}
    (read : line port.place = none) :
    serialRead line port = (-1, { port with place := port.place + 1 }) := by
  -- A read that ends with the timeout is counted as well.
  rw [serialRead, read]
  rfl

/-- The first byte of a delivery, and those behind it. -/
theorem delivered_cons {line : Nat → Option UInt8} {place : Nat} {byte : UInt8}
    {bytes : List UInt8} :
    Delivered line place (byte :: bytes) ↔
      line place = some byte ∧ Delivered line (place + 1) bytes := by
  simp only [Delivered, List.length_cons, window, List.map_cons, List.cons.injEq]

/-- A delivery in two parts. -/
theorem delivered_append {line : Nat → Option UInt8} {place : Nat} {first second : List UInt8} :
    Delivered line place (first ++ second) ↔
      Delivered line place first ∧ Delivered line (place + first.length) second := by
  -- The window over both parts falls into a window for each.
  unfold Delivered
  rw [List.length_append, window_append, List.map_append]
  constructor
  · exact fun same => List.append_inj same (by simp)
  · rintro ⟨one, two⟩
    rw [one, two]

/-- The length comes out as the number that the bytes denote, as an `int`. -/
theorem lengthFrom_bmod (start : Int) (given : List UInt8) :
    (lengthFrom start given).bmod (2 ^ 32) =
      (start * 256 ^ given.length + bigEndian given).bmod (2 ^ 32) := by
  -- Cutting to an `int` at every byte is the same as cutting once at the end.
  induction given generalizing start with
  | nil => simp [lengthFrom]
  | cons byte rest ih =>
    have later : lengthFrom start (byte :: rest) =
        lengthFrom ((start * 256 + (byte.toNat : Int)).bmod (2 ^ 32)) rest := rfl
    have shape : (start * 256 + byte.toNat) * 256 ^ rest.length + (bigEndian rest : Int) =
        start * 256 ^ (byte :: rest).length + bigEndian (byte :: rest) := by
      rw [bigEndian_cons, List.length_cons]
      push_cast
      ring
    rw [later, ih, ← shape]
    generalize 2 ^ 32 = modulus
    rw [← Int.bmod_add_bmod, Int.bmod_mul_bmod, Int.bmod_add_bmod]

/-- What was cut to an `int` last is not cut again. -/
theorem bmod_lengthFrom (given : List UInt8) :
    (lengthFrom 0 given).bmod (2 ^ 32) = lengthFrom 0 given := by
  -- The last byte was added and cut already.
  rcases List.eq_nil_or_concat' given with rfl | ⟨rest, byte, rfl⟩
  · simp [lengthFrom]
  · have last : lengthFrom 0 (rest ++ [byte]) =
        (lengthFrom 0 rest * 256 + (byte.toNat : Int)).bmod (2 ^ 32) := by
      rw [lengthFrom, List.foldl_append]
      rfl
    rw [last, Int.bmod_bmod]

/-- A length that is small enough is declared as it is. -/
theorem declared_of_lt {given : List UInt8} (small : bigEndian given < 2 ^ 31) :
    declared given = bigEndian given := by
  -- A number below 2 ^ 31 is not changed by the cut.
  have whole := lengthFrom_bmod 0 given
  rw [Int.zero_mul, Int.zero_add, bmod_lengthFrom] at whole
  rw [declared, whole]
  refine Int.bmod_eq_of_le_mul_two ?_ ?_
  · omega
  · omega

/-- A declared length is an `int`. -/
theorem declared_range (given : List UInt8) :
    -2 ^ 31 ≤ declared given ∧ declared given < 2 ^ 31 := by
  -- The length was cut to 32 bits when its last byte was added.
  rw [declared, ← bmod_lengthFrom]
  have lower := Int.le_bmod (x := lengthFrom 0 given) (Nat.two_pow_pos 32)
  have upper := Int.bmod_lt (x := lengthFrom 0 given) (Nat.two_pow_pos 32)
  omega

/-- Bytes that come in are taken for the length, one after the other. -/
theorem readLength_append {line : Nat → Option UInt8} {given : List UInt8} (turns csum : Nat)
    (port : Port) (first : Delivered line port.place given) :
    readLength line (given.length + turns) csum port =
      readLength line turns (csum + byteSum given)
        { port with
          place := port.place + given.length
          pktLength := lengthFrom port.pktLength given } := by
  -- The induction is on the bytes that come in, none of which looks like a timeout.
  induction given generalizing csum port with
  | nil => simp [byteSum, lengthFrom]
  | cons byte rest ih =>
    obtain ⟨here, behind⟩ := delivered_cons.mp first
    have count : (byte :: rest).length + turns = rest.length + turns + 1 := by
      rw [List.length_cons]
      omega
    have nonneg : (byte.toNat : Int) ≠ -1 := by omega
    rw [count, readLength, serialRead_of_some here]
    dsimp only
    rw [if_neg nonneg, ofInt_toNat, ih _ _ behind]
    have sum : csum + byteSum (byte :: rest) = csum + byte.toNat + byteSum rest := by
      simp only [byteSum, List.map_cons, List.sum_cons, Nat.add_assoc]
    have place : port.place + (byte :: rest).length = port.place + 1 + rest.length := by
      rw [List.length_cons]
      omega
    rw [sum, place]
    rfl

/-- A read that is taken for a byte, whatever it is. -/
theorem serialRead_byte (line : Nat → Option UInt8) (port : Port) :
    UInt8.ofInt (serialRead line port).1 = (line port.place).getD 0xff := by
  -- A timeout is -1, which is 0xff as a byte.
  unfold serialRead
  cases line port.place with
  | none => rfl
  | some ch => exact ofInt_toNat ch

/-- A read goes on to the next place. -/
theorem serialRead_snd (line : Nat → Option UInt8) (port : Port) :
    (serialRead line port).2 = { port with place := port.place + 1 } := rfl

/-- The packet loop stores what it hears. -/
theorem readPayload_eq (line : Nat → Option UInt8) (turns i csum : Nat) (port : Port) :
    readPayload line turns i csum port =
      (csum + byteSum (heard line port.place turns),
        { port with
          place := port.place + turns
          pkt := storeBytes i (heard line port.place turns) port.pkt }) := by
  -- The induction is on the turns, each of which stores what its read returned.
  induction turns generalizing i csum port with
  | zero => rfl
  | succ turns ih =>
    have first : heard line port.place (turns + 1) =
        (line port.place).getD 0xff :: heard line (port.place + 1) turns := rfl
    have place : port.place + (turns + 1) = port.place + 1 + turns := by omega
    rw [readPayload, first, place]
    dsimp only
    rw [ih, serialRead_byte, serialRead_snd]
    simp only [byteSum, List.map_cons, List.sum_cons, Nat.add_assoc, storeBytes]

/-- The commands are asked and answered in one of three ways each. -/
theorem kind_of_mem {cmd : RXcmd} (member : cmd ∈ rxcmds) :
    (cmd.pktResponse = 0 ∨
        (cmd.pktResponse = 4 ∨ cmd.pktResponse = 2 ∨ cmd.pktResponse = 1) ∧
          cmd.response ≠ 0x06 ∧ cmd.pktCmd ≠ 7) ∧
      (cmd.pktCmd = 0 ∨ cmd.pktCmd = 1 ∨ cmd.pktCmd = 7) := by
  -- The table has finitely many commands.
  revert cmd
  decide

/-- A length that fits gives the packet its place. -/
theorem needPktSize_of_fits {port : Port} {len : Int} (fits : Fits port len) :
    needPktSize len port =
      some { port with pktLength := len, pktBufSize := max port.pktBufSize len } := by
  unfold needPktSize
  split
  · -- The buffer is too small, so that the length itself is what fits.
    rename_i larger
    rw [if_pos (fits.resolve_left (by omega)), max_eq_right (by omega)]
  · rename_i enough
    rw [max_eq_left (by omega)]

/-- A length that does not fit has no buffer. -/
theorem needPktSize_of_not_fits {port : Port} {len : Int} (overflow : ¬ Fits port len) :
    needPktSize len port = none := by
  -- The buffer is too small, and the sum with the margin is no `int`.
  unfold Fits at overflow
  rw [needPktSize, if_pos (by omega), if_neg (by omega)]

section Packet

variable {cmd : RXcmd} {line : Nat → Option UInt8} {port : Port} {given : List UInt8}
  (sized : cmd.pktResponse = 4 ∨ cmd.pktResponse = 2 ∨ cmd.pktResponse = 1)
  (first : Delivered line port.place (cmd.response :: given))

include sized first

/-- A packet with its length is read to its end, and judged by its sum. -/
theorem rxReadPacket_whole (whole : given.length = cmd.pktResponse)
    (fits : Fits port (declared given)) :
    rxReadPacket cmd line port =
      if 2 ^ 31 ≤ packetSum cmd line port.place given then none
      else some (if packetSum cmd line port.place given % 256 ≠ 0 then rxErrChecksum
        else rxErrNone, afterPacket line given port) := by
  -- The bytes are taken in their order: the code, the length, the payload and the checksum.
  obtain ⟨code, behind⟩ := delivered_cons.mp first
  have nonneg : (cmd.response.toNat : Int) ≠ -1 := by omega
  have length := readLength_append 0 cmd.response.toNat
    { port with place := port.place + 1, pktLength := 0 } behind
  rw [Nat.add_zero, readLength, ← declared, whole] at length
  -- The bytes behind the length are the payload and the checksum.
  have last : heard line (port.place + 1 + given.length) ((declared given).toNat + 1) =
      heard line (port.place + 1 + given.length) (declared given).toNat ++
        [(line (port.place + 1 + given.length + (declared given).toNat)).getD 0xff] := by
    unfold heard
    rw [window_append, List.map_append]
    rfl
  have sum : packetSum cmd line port.place given = cmd.response.toNat + byteSum given +
        byteSum (heard line (port.place + 1 + given.length) (declared given).toNat) +
        ((line (port.place + 1 + given.length + (declared given).toNat)).getD 0xff).toNat := by
    rw [packetSum, last]
    simp only [byteSum, List.map_cons, List.map_append, List.sum_cons, List.sum_append,
      List.map_nil, List.sum_nil]
    omega
  rw [sum]
  unfold rxReadPacket afterPacket
  rw [serialRead_of_some code, whole]
  have buffer := @needPktSize_of_fits { port with
    place := port.place + 1 + given.length, pktLength := declared given } _ fits
  rw [whole] at buffer
  simp only [if_neg nonneg, ofInt_toNat, ne_eq, not_true, if_false, if_pos sized, length, buffer,
    readPayload_eq, serialRead_byte, serialRead_snd]
  split
  · rfl
  · split <;> rfl

/-- A packet that no buffer can be asked for has no end. -/
theorem rxReadPacket_overflow (whole : given.length = cmd.pktResponse)
    (overflow : ¬ Fits port (declared given)) : rxReadPacket cmd line port = none := by
  -- The code and the length are read as in any packet, and then memory is asked for.
  obtain ⟨code, behind⟩ := delivered_cons.mp first
  have nonneg : (cmd.response.toNat : Int) ≠ -1 := by omega
  have length := readLength_append 0 cmd.response.toNat
    { port with place := port.place + 1, pktLength := 0 } behind
  rw [Nat.add_zero, readLength, ← declared, whole] at length
  -- The length is read, and the size of the block for it is no `int`.
  have buffer := @needPktSize_of_not_fits { port with
    place := port.place + 1 + given.length, pktLength := declared given } _ overflow
  rw [whole] at buffer
  unfold rxReadPacket
  rw [serialRead_of_some code]
  simp only [if_neg nonneg, ofInt_toNat, ne_eq, not_true, if_false, if_pos sized, length, buffer]

/-- A length that is cut short is noticed. -/
theorem rxReadPacket_cut (short : given.length < cmd.pktResponse)
    (ends : line (port.place + 1 + given.length) = none) :
    rxReadPacket cmd line port =
      some (rxErrTimeout, { port with
        place := port.place + 1 + given.length + 1, pktLength := declared given }) := by
  -- The bytes before the timeout are counted, and the turn of the timeout ends the loop.
  obtain ⟨code, behind⟩ := delivered_cons.mp first
  have nonneg : (cmd.response.toNat : Int) ≠ -1 := by omega
  obtain ⟨left, more⟩ : ∃ left, cmd.pktResponse = given.length + (left + 1) :=
    ⟨cmd.pktResponse - given.length - 1, by omega⟩
  have length := readLength_append (left + 1) cmd.response.toNat
    { port with place := port.place + 1, pktLength := 0 } behind
  rw [readLength, serialRead_of_none ends, ← more, ← declared] at length
  unfold rxReadPacket
  rw [serialRead_of_some code]
  simp only [if_neg nonneg, ofInt_toNat, ne_eq, not_true, if_false, if_pos sized, length, if_true]

end Packet

/-- A read returns a byte just when this byte comes in. -/
theorem serialRead_eq_iff {line : Nat → Option UInt8} {port : Port} (byte : UInt8) :
    (serialRead line port).1 = (byte.toNat : Int) ↔ line port.place = some byte := by
  -- A timeout returns a negative number, which is no byte.
  cases read : line port.place with
  | none =>
    rw [serialRead_of_none read]
    refine iff_of_false ?_ (Option.some_ne_none byte).symm
    dsimp only
    omega
  | some ch =>
    rw [serialRead_of_some read, Option.some.injEq, Int.ofNat_inj]
    exact UInt8.toNat_inj

/-- A read returns that there was a timeout just when there was one. -/
theorem serialRead_eq_timeout {line : Nat → Option UInt8} {port : Port} :
    (serialRead line port).1 = rxErrTimeout ↔ line port.place = none := by
  -- A byte is not negative.
  cases read : line port.place with
  | none => exact iff_of_true (by rw [serialRead_of_none read]; rfl) rfl
  | some ch =>
    rw [serialRead_of_some read]
    refine iff_of_false ?_ (Option.some_ne_none ch)
    unfold rxErrTimeout
    omega

/-- Bytes of a length come in until all of them are there or the timeout comes. -/
theorem delivered_or_cut (line : Nat → Option UInt8) (place count : Nat) :
    ∃ given, Delivered line place given ∧ (given.length = count ∨
      given.length < count ∧ line (place + given.length) = none) := by
  -- The induction is on the bytes that are waited for.
  induction count generalizing place with
  | zero => exact ⟨[], rfl, .inl rfl⟩
  | succ count ih =>
    cases read : line place with
    | none => exact ⟨[], rfl, .inr ⟨Nat.succ_pos count, read⟩⟩
    | some byte =>
      obtain ⟨given, delivered, whole | ⟨short, ends⟩⟩ := ih (place + 1)
      · exact ⟨byte :: given, delivered_cons.mpr ⟨read, delivered⟩, .inl (by simp [whole])⟩
      · refine ⟨byte :: given, delivered_cons.mpr ⟨read, delivered⟩,
          .inr ⟨by simpa using short, ?_⟩⟩
        have place : place + (byte :: given).length = place + 1 + given.length := by
          rw [List.length_cons]
          omega
        rw [place]
        exact ends

/-- Bytes that come in are heard. -/
theorem heard_of_delivered {line : Nat → Option UInt8} {place : Nat} {bytes : List UInt8}
    (delivered : Delivered line place bytes) : heard line place bytes.length = bytes := by
  -- Nothing is heard of a timeout where all bytes come in.
  rw [heard, delivered, List.map_map]
  simp [Function.comp_def]

/-- Bytes in two parts have the sum of both. -/
theorem byteSum_append (first second : List UInt8) :
    byteSum (first ++ second) = byteSum first + byteSum second := by
  simp [byteSum]

section Answer

variable {cmd : RXcmd} {line : Nat → Option UInt8} {port : Port}
  (sized : cmd.pktResponse = 4 ∨ cmd.pktResponse = 2 ∨ cmd.pktResponse = 1)

include sized

/-- A noticed fault makes `rx_read_packet` return an error. -/
theorem Fault.readPacket {next : Port} (fault : Fault cmd line port next) :
    ∃ i, rxReadPacket cmd line port = some (i, next) ∧ i ≠ rxErrNone := by
  -- One case for each fault, at the place where the call finds it.
  have timeout : rxErrTimeout ≠ rxErrNone := by decide
  have badSum : rxErrChecksum ≠ rxErrNone := by decide
  cases fault with
  | silent packet code =>
    unfold rxReadPacket
    rw [serialRead_of_none code]
    exact ⟨_, rfl, timeout⟩
  | @refused code packet first other error =>
    have nonneg : (code.toNat : Int) ≠ -1 := by omega
    have differs : (code.toNat : Int) ≠ cmd.response.toNat := fun same =>
      other (UInt8.toNat_inj.mp (by omega))
    unfold rxReadPacket
    rw [serialRead_of_some first]
    simp only [if_neg nonneg, if_pos differs]
    -- The byte behind the code is returned, which is an error when it is not zero.
    exact ⟨_, rfl, fun zero => error ((serialRead_eq_iff 0).mp zero)⟩
  | cut packet first short ends => exact ⟨_, rxReadPacket_cut sized first short ends, timeout⟩
  | garbled packet first whole fits small wrong =>
    have read := rxReadPacket_whole sized first whole fits
    rw [if_neg (by omega), if_pos wrong] at read
    exact ⟨_, read, badSum⟩
  | unheard plain => omega

/-- An error of `rx_read_packet` is a noticed fault. -/
theorem fault_of_readPacket {i : Int} {next : Port}
    (ran : rxReadPacket cmd line port = some (i, next)) (failed : i ≠ rxErrNone) :
    Fault cmd line port next := by
  have packet : cmd.pktResponse ≠ 0 := by omega
  -- What a fault leaves behind is what this call has left.
  have same : ∀ {other : Port}, Fault cmd line port other → Fault cmd line port next := by
    intro other fault
    obtain ⟨_, again, _⟩ := fault.readPacket sized
    obtain ⟨_, rfl⟩ := Prod.mk.inj (Option.some.inj (ran.symm.trans again))
    exact fault
  cases first : line port.place with
  | none => exact same (Fault.silent packet first)
  | some code =>
    by_cases expected : code = cmd.response
    · subst expected
      obtain ⟨given, delivered, whole | ⟨short, ends⟩⟩ :=
        delivered_or_cut line (port.place + 1) cmd.pktResponse
      · have both := delivered_cons.mpr ⟨first, delivered⟩
        by_cases fits : Fits port (declared given)
        · rw [rxReadPacket_whole sized both whole fits] at ran
          split at ran
          · cases ran
          · rename_i small
            rw [Option.some.injEq, Prod.mk.injEq] at ran
            obtain ⟨rfl, rfl⟩ := ran
            refine .garbled packet both whole fits (by omega) fun right => failed ?_
            rw [if_neg (not_not_intro right)]
        · rw [rxReadPacket_overflow sized both whole fits] at ran
          cases ran
      · exact same (Fault.cut packet (delivered_cons.mpr ⟨first, delivered⟩) short ends)
    · refine same (Fault.refused packet first expected fun zero => failed ?_)
      have nonneg : (code.toNat : Int) ≠ -1 := by omega
      have differs : (code.toNat : Int) ≠ cmd.response.toNat := fun equal =>
        expected (UInt8.toNat_inj.mp (by omega))
      unfold rxReadPacket at ran
      rw [serialRead_of_some first] at ran
      simp only [if_neg nonneg, if_pos differs, Option.some.injEq] at ran
      have value : (serialRead line { port with place := port.place + 1 }).1 = i :=
        congrArg Prod.fst ran
      rw [← value]
      exact (serialRead_eq_iff 0).mpr zero

/-- A response as it should be is accepted. -/
theorem readPacket_of_answered (answered : Answered cmd line port.place) :
    ∃ next, rxReadPacket cmd line port = some (rxErrNone, next) := by
  -- The length and the packet come in whole, and the sum with the checksum is zero.
  obtain ⟨given, payload, checksum, whole, size, small, delivered, sum, bounded⟩ := answered
  rw [← List.cons_append] at delivered sum bounded
  obtain ⟨first, behind⟩ := delivered_append.mp delivered
  have value : declared given = payload.length := by rw [declared_of_lt (by omega), size]
  have length : (declared given).toNat = payload.length := by omega
  have fits : Fits port (declared given) := .inr (by omega)
  have heardAll : heard line (port.place + 1 + given.length) ((declared given).toNat + 1) =
      payload ++ [checksum] := by
    have place : port.place + (cmd.response :: given).length = port.place + 1 + given.length := by
      rw [List.length_cons]
      omega
    have count : (declared given).toNat + 1 = (payload ++ [checksum]).length := by
      rw [length, List.length_append]
      rfl
    rw [count, ← place]
    exact heard_of_delivered behind
  have total : packetSum cmd line port.place given =
      byteSum (cmd.response :: given ++ (payload ++ [checksum])) := by
    rw [packetSum, heardAll, ← byteSum_append]
  refine ⟨afterPacket line given port, ?_⟩
  rw [rxReadPacket_whole sized first whole fits, total, if_neg (by omega),
    if_neg (not_not_intro sum)]

end Answer

end OpenwrtMisc.RenesasFlash
