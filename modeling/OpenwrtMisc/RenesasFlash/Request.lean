import OpenwrtMisc.RenesasFlash.Response

/-! How a request is sent, and when the next one is the same. -/

namespace OpenwrtMisc.RenesasFlash

/-- Bytes in front of a packet or behind it do not belong to it. -/
theorem payloadOf_update {pkt : Int → UInt8} {len i : Int} {v : UInt8} (outside : i < 0 ∨ len ≤ i) :
    payloadOf (Function.update pkt i v) len = payloadOf pkt len := by
  -- The packet has no byte at the place that is written.
  unfold payloadOf
  refine List.map_congr_left fun j inside => Function.update_of_ne ?_ _ _
  rw [List.mem_range] at inside
  omega

/-- The packet has its length. -/
theorem length_payloadOf (pkt : Int → UInt8) (len : Int) :
    (payloadOf pkt len).length = len.toNat := by
  rw [payloadOf, List.length_map, List.length_range]

/-- A block in three parts: one byte, the bytes behind it, and the last one. -/
theorem writeBlock_one (pkt : Int → UInt8) {len : Int} (nonneg : 0 ≤ len) (small : len < 2 ^ 31) :
    writeBlock pkt (-1) (len + 2) = pkt (-1) :: (payloadOf pkt len ++ [pkt len]) := by
  -- The first byte stands in front of the packet, and the last one behind it.
  have count : ((len + 2) % 2 ^ 32).toNat = len.toNat + 1 + 1 := by omega
  rw [writeBlock, count, List.range_succ, List.range_succ_eq_map]
  simp only [List.map_append, List.map_cons, List.map_map, List.map_nil, List.cons_append]
  have last : (-1 : Int) + (len.toNat + 1 : Nat) = len := by omega
  have middle : ((fun i : Nat => pkt (-1 + i)) ∘ Nat.succ) = fun i : Nat => pkt i := by
    funext i
    have shifted : (-1 : Int) + (i + 1 : Nat) = i := by omega
    exact congrArg pkt shifted
  rw [last, middle]
  rfl

/-- A block with two bytes in front of the packet. -/
theorem writeBlock_two (pkt : Int → UInt8) {len : Int} (nonneg : 0 ≤ len) (small : len < 2 ^ 31) :
    writeBlock pkt (-2) (len + 3) =
      pkt (-2) :: pkt (-1) :: (payloadOf pkt len ++ [pkt len]) := by
  -- One byte more in front of the block of the lemma before.
  have one := writeBlock_one pkt nonneg small
  have count : ((len + 3) % 2 ^ 32).toNat = ((len + 2) % 2 ^ 32).toNat + 1 := by omega
  have shift : ((fun i : Nat => pkt (-2 + i)) ∘ Nat.succ) = fun i : Nat => pkt (-1 + i) := by
    funext i
    have shifted : (-2 : Int) + (i + 1 : Nat) = -1 + i := by omega
    exact congrArg pkt shifted
  rw [writeBlock, count, List.range_succ_eq_map, List.map_cons, List.map_map, shift]
  rw [writeBlock] at one
  rw [one]
  rfl

/-- A request leaves the packet, its length and the line alone. -/
theorem sendBlock_snd (cmd : RXcmd) (port : Port) :
    ∃ pkt, (sendBlock cmd port).2 = { port with pkt := pkt } ∧
      payloadOf pkt port.pktLength = payloadOf port.pkt port.pktLength := by
  -- The bytes in front of the packet and the checksum behind it are none of the packet's.
  unfold sendBlock
  dsimp only
  split
  · exact ⟨port.pkt, rfl, rfl⟩
  · refine ⟨_, rfl, ?_⟩
    rw [payloadOf_update (.inr le_rfl), payloadOf_update (.inl (by decide)),
      payloadOf_update (.inl (by decide))]
  · refine ⟨_, rfl, ?_⟩
    rw [payloadOf_update (.inr le_rfl), payloadOf_update (.inl (by decide))]
  · exact ⟨port.pkt, rfl, rfl⟩

/-- The request of a command with a length byte. -/
theorem sendBlock_one {cmd : RXcmd} {port : Port} (kind : cmd.pktCmd = 1)
    (nonneg : 0 ≤ port.pktLength) (small : port.pktLength < 2 ^ 31) :
    (sendBlock cmd port).1 =
      cmd.cmd :: UInt8.ofInt port.pktLength :: (payloadOf port.pkt port.pktLength ++
        [UInt8.ofInt (-(cmd.cmd.toNat + port.pktLength +
          byteSum (payloadOf port.pkt port.pktLength)))]) := by
  -- The command, the length and the checksum are stored at three places outside the packet.
  have first : (-2 : Int) ≠ port.pktLength := by omega
  have second : (-1 : Int) ≠ port.pktLength := by omega
  simp only [sendBlock, kind]
  rw [writeBlock_two _ nonneg small, payloadOf_update (.inr le_rfl),
    payloadOf_update (.inl (by decide)), payloadOf_update (.inl (by decide)),
    Function.update_of_ne first, Function.update_of_ne (by decide), Function.update_self,
    Function.update_of_ne second, Function.update_self, Function.update_self]

/-- The request for programming. -/
theorem sendBlock_seven {cmd : RXcmd} {port : Port} (kind : cmd.pktCmd = 7)
    (nonneg : 0 ≤ port.pktLength) (small : port.pktLength < 2 ^ 31) :
    (sendBlock cmd port).1 =
      cmd.cmd :: (payloadOf port.pkt port.pktLength ++
        [UInt8.ofInt (-(cmd.cmd.toNat + byteSum (payloadOf port.pkt port.pktLength)))]) := by
  -- The command and the checksum are stored outside the packet, and no length is.
  have first : (-1 : Int) ≠ port.pktLength := by omega
  simp only [sendBlock, kind]
  rw [writeBlock_one _ nonneg small, payloadOf_update (.inr le_rfl),
    payloadOf_update (.inl (by decide)), Function.update_of_ne first, Function.update_self,
    Function.update_self]

/-- Requests with the same packet are the same. -/
theorem sendBlock_congr {cmd : RXcmd} {port next : Port}
    (kind : cmd.pktCmd = 0 ∨ cmd.pktCmd = 1 ∨ cmd.pktCmd = 7)
    (request : cmd.pktCmd ≠ 0 → 0 ≤ port.pktLength ∧ port.pktLength < 2 ^ 31)
    (keeps : Keeps cmd port next) : (sendBlock cmd next).1 = (sendBlock cmd port).1 := by
  -- A plain request is the command alone, and the others are made of the packet and its length.
  rcases keeps with plain | ⟨length, payload⟩
  · simp only [sendBlock, plain]
  · rcases kind with zero | one | seven
    · simp only [sendBlock, zero]
    · obtain ⟨nonneg, small⟩ := request (by omega)
      rw [sendBlock_one one nonneg small, sendBlock_one one (by omega) (by omega), payload, length]
    · obtain ⟨nonneg, small⟩ := request (by omega)
      rw [sendBlock_seven seven nonneg small, sendBlock_seven seven (by omega) (by omega), payload]

/-- Only a request with the same packet is the same. -/
theorem keeps_of_sendBlock_eq {cmd : RXcmd} {port next : Port} (kind : cmd.pktCmd = 1)
    (nonneg : 0 ≤ port.pktLength) (small : port.pktLength < 2 ^ 31)
    (range : -2 ^ 31 ≤ next.pktLength ∧ next.pktLength < 2 ^ 31)
    (same : (sendBlock cmd next).1 = (sendBlock cmd port).1) : Keeps cmd port next := by
  -- The requests are as long as each other, so the lengths are the same.
  have count : ∀ other : Port, (sendBlock cmd other).1.length =
      ((other.pktLength + 3) % 2 ^ 32).toNat := fun other => by
    simp only [sendBlock, kind, writeBlock, List.length_map, List.length_range]
  have lengths := congrArg List.length same
  rw [count, count] at lengths
  have length : next.pktLength = port.pktLength := by omega
  rw [sendBlock_one kind nonneg small, sendBlock_one kind (by omega) (by omega)] at same
  simp only [List.cons.injEq, true_and] at same
  refine .inr ⟨length, List.append_inj_left same.2 ?_⟩
  rw [length_payloadOf, length_payloadOf, length]

/-- After a noticed fault the request is the same just when its packet is still there. -/
theorem sendBlock_eq_iff {cmd : RXcmd} (member : cmd ∈ rxcmds) {line : Nat → Option UInt8}
    {port next : Port} {after : Nat}
    (request : cmd.pktCmd ≠ 0 → 0 ≤ port.pktLength ∧ port.pktLength < 2 ^ 31)
    (fault : Fault cmd line { (sendBlock cmd port).2 with polls := after } next) :
    ((sendBlock cmd next).1 = (sendBlock cmd port).1 ↔ Keeps cmd port next) ∧
      (cmd.pktCmd = 7 → Keeps cmd port next) := by
  -- Only a garbled answer changes the packet, and it is the answer of a command of its own kind.
  obtain ⟨kinds, kind⟩ := kind_of_mem member
  obtain ⟨pkt, sent, payload⟩ := sendBlock_snd cmd port
  rw [sent] at fault
  constructor
  · refine ⟨fun same => ?_, sendBlock_congr kind request⟩
    cases fault with
    | silent packet code => exact .inr ⟨rfl, payload⟩
    | refused packet first other error => exact .inr ⟨rfl, payload⟩
    | unheard plain acks first error => exact .inr ⟨rfl, payload⟩
    | @cut given packet first short ends =>
      rcases kind with zero | one | seven
      · exact .inl zero
      · obtain ⟨nonneg, small⟩ := request (by omega)
        exact keeps_of_sendBlock_eq one nonneg small (declared_range given) same
      · omega
    | @garbled given packet first whole wrong =>
      rcases kind with zero | one | seven
      · exact .inl zero
      · obtain ⟨nonneg, small⟩ := request (by omega)
        exact keeps_of_sendBlock_eq one nonneg small (declared_range given) same
      · omega
  · intro seven
    cases fault with
    | silent packet code => exact .inr ⟨rfl, payload⟩
    | refused packet first other error => exact .inr ⟨rfl, payload⟩
    | unheard plain acks first error => exact .inr ⟨rfl, payload⟩
    | cut packet first short ends => omega
    | garbled packet first whole wrong => omega

/-- A request that is kept over a fault still has room, as no fault makes the buffer smaller. -/
theorem Room.again {cmd : RXcmd} {line : Nat → Option UInt8} {port next : Port} {after : Nat}
    (room : Room cmd port)
    (fault : Fault cmd line { (sendBlock cmd port).2 with polls := after } next)
    (keeps : Keeps cmd port next) : Room cmd next := by
  -- A garbled answer may enlarge the buffer, and the other faults leave it.
  obtain ⟨pkt, sent, -⟩ := sendBlock_snd cmd port
  rw [sent] at fault
  have larger : port.pktBufSize ≤ next.pktBufSize := by
    cases fault with
    | garbled => exact le_max_left _ _
    | _ => exact le_rfl
  rcases keeps with plain | ⟨length, payload⟩
  · exact .inl plain
  · refine room.imp_right fun inside => ?_
    rw [length] at payload ⊢
    rw [payload]
    omega

/-- The zeros are sent until the line is ready, one for two calls. -/
theorem nulLoop_some {ready : Nat → Bool} {fuel polls x after : Nat}
    (ended : nulLoop ready fuel polls = some (x, after)) :
    ∃ k, (∀ j < k, ready (polls + j) = false) ∧ ready (polls + k) = true ∧
      x = (k + 1) / 2 ∧ after = polls + k + 1 := by
  -- The induction is on the fuel, of which two calls of the poll take one zero.
  induction fuel generalizing polls x after with
  | zero => cases ended
  | succ fuel ih =>
    rw [nulLoop] at ended
    by_cases first : ready polls = true
    · rw [if_pos first] at ended
      cases ended
      exact ⟨0, fun j below => absurd below (Nat.not_lt_zero j), first, rfl, rfl⟩
    · rw [if_neg first] at ended
      by_cases second : ready (polls + 1) = true
      · rw [if_pos second] at ended
        cases ended
        refine ⟨1, fun j below => ?_, second, rfl, rfl⟩
        obtain rfl : j = 0 := by omega
        exact Bool.eq_false_of_not_eq_true first
      · rw [if_neg second] at ended
        obtain ⟨⟨count, rest⟩, later, same⟩ := Option.map_eq_some_iff.mp ended
        obtain ⟨k, before, at_, value, place⟩ := ih later
        simp only [Prod.mk.injEq] at same
        refine ⟨k + 2, fun j below => ?_, ?_, by omega, by omega⟩
        · rcases j with _ | _ | j
          · exact Bool.eq_false_of_not_eq_true first
          · exact Bool.eq_false_of_not_eq_true second
          · have shifted : polls + (j + 1 + 1) = polls + 2 + j := by omega
            rw [shifted]
            exact before j (by omega)
        · have shifted : polls + (k + 2) = polls + 2 + k := by omega
          rw [shifted]
          exact at_

/-- A line that becomes ready ends the loop. -/
theorem nulLoop_of_ready {ready : Nat → Bool} {k polls fuel : Nat}
    (before : ∀ j < k, ready (polls + j) = false) (last : ready (polls + k) = true)
    (enough : k < fuel) :
    nulLoop ready fuel polls = some ((k + 1) / 2, polls + k + 1) := by
  -- Two polls go with each zero, so the induction takes two places at a time.
  induction fuel generalizing k polls with
  | zero => exact absurd enough (Nat.not_lt_zero k)
  | succ fuel ih =>
    rw [nulLoop]
    rcases k with _ | _ | k
    · rw [Nat.add_zero] at last
      rw [if_pos last]
    · have first : ready polls = false := before 0 (by decide)
      rw [first, if_neg (by decide), if_pos last]
    · have first : ready polls = false := before 0 (by omega)
      have second : ready (polls + 1) = false := before 1 (by omega)
      have later : ∀ j < k, ready (polls + 2 + j) = false := fun j below => by
        have shifted : polls + 2 + j = polls + (j + 2) := by omega
        rw [shifted]
        exact before (j + 2) (by omega)
      have shifted : polls + (k + 1 + 1) = polls + 2 + k := by omega
      rw [shifted] at last
      rw [first, second, if_neg (by decide), if_neg (by decide), ih later last (by omega)]
      simp only [Option.map_some, Option.some.injEq, Prod.mk.injEq]
      omega

/-- A request that was sent had room in the buffer. -/
theorem room_of_sendCommand {fuel : Nat} {cmd : RXcmd} {ready : Nat → Bool} {port : Port}
    {result : List UInt8 × Port} (made : sendCommand fuel cmd ready port = some result) :
    Room cmd port := by
  -- Without room there is no request.
  by_contra none
  rw [sendCommand, if_neg none] at made
  cases made

/-- A request that was sent: what it was, and that the line became ready behind it. -/
theorem sendCommand_some {fuel : Nat} {cmd : RXcmd} {ready : Nat → Bool} {port sent : Port}
    {bytes : List UInt8} (made : sendCommand fuel cmd ready port = some (bytes, sent)) :
    ∃ nuls after, Waits cmd ready port.polls nuls after ∧
      bytes = (sendBlock cmd port).1 ++ List.replicate nuls 0 ∧
      sent = { (sendBlock cmd port).2 with polls := after } := by
  -- Only the command for programming waits for the line.
  obtain ⟨pkt, shape, -⟩ := sendBlock_snd cmd port
  rw [sendCommand, if_pos (room_of_sendCommand made)] at made
  unfold Waits
  generalize sendBlock cmd port = block at made shape ⊢
  obtain ⟨block, _⟩ := block
  obtain rfl := shape
  dsimp only at made ⊢
  split at made
  · rename_i seven
    obtain ⟨⟨x, after⟩, ended, same⟩ := Option.map_eq_some_iff.mp made
    cases same
    refine ⟨x, after, ?_, rfl, rfl⟩
    rw [if_pos seven]
    exact nulLoop_some ended
  · rename_i other
    cases made
    refine ⟨0, port.polls, ?_, by rw [List.replicate_zero, List.append_nil], rfl⟩
    rw [if_neg other]
    exact ⟨rfl, rfl⟩

/-- A request is sent when the line becomes ready behind it. -/
theorem sendCommand_of_waits {cmd : RXcmd} {ready : Nat → Bool} {port : Port} {nuls after : Nat}
    (room : Room cmd port) (waits : Waits cmd ready port.polls nuls after) :
    ∃ enough, ∀ fuel, enough ≤ fuel → sendCommand fuel cmd ready port =
      some ((sendBlock cmd port).1 ++ List.replicate nuls 0,
        { (sendBlock cmd port).2 with polls := after }) := by
  -- The fuel has to be enough for the polls that find the line not ready.
  obtain ⟨pkt, shape, -⟩ := sendBlock_snd cmd port
  unfold Waits at waits
  simp only [sendCommand, if_pos room]
  generalize sendBlock cmd port = block at shape ⊢
  obtain ⟨block, _⟩ := block
  obtain rfl := shape
  dsimp only
  by_cases seven : cmd.pktCmd = 7
  · rw [if_pos seven] at waits
    obtain ⟨k, before, last, rfl, rfl⟩ := waits
    refine ⟨k + 1, fun fuel enough => ?_⟩
    rw [if_pos seven, nulLoop_of_ready before last enough]
    rfl
  · rw [if_neg seven] at waits
    obtain ⟨rfl, rfl⟩ := waits
    refine ⟨0, fun fuel _ => ?_⟩
    rw [if_neg seven, List.replicate_zero, List.append_nil]

/-- A request waits in one way only. -/
theorem Waits.unique {cmd : RXcmd} {ready : Nat → Bool} {polls first second one other : Nat}
    (here : Waits cmd ready polls first one) (there : Waits cmd ready polls second other) :
    first = second ∧ one = other := by
  -- The first poll that finds the line ready is the same for both.
  unfold Waits at here there
  split at here
  · obtain ⟨k, before, last, rfl, rfl⟩ := here
    rename_i seven
    rw [if_pos seven] at there
    obtain ⟨j, earlier, ends, rfl, rfl⟩ := there
    have same : k = j := by
      rcases Nat.lt_trichotomy k j with less | same | more
      · rw [earlier k less] at last
        cases last
      · exact same
      · rw [before j more] at ends
        cases ends
    exact ⟨by rw [same], by rw [same]⟩
  · rename_i other
    rw [if_neg other] at there
    exact ⟨by rw [here.1, there.1], by rw [here.2, there.2]⟩

end OpenwrtMisc.RenesasFlash
