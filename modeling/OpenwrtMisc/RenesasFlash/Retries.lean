import OpenwrtMisc.RenesasFlash.Request

/-! What comes of the attempts at a command, and when a call is reliable. -/

namespace OpenwrtMisc.RenesasFlash

/-- A call of one attempt is reliable when what it says of its answer is right. -/
theorem reliable_single {cmd : RXcmd} {line : Nat → Option UInt8} {i : Int} {sent : List UInt8}
    {answer : Nat} :
    Reliable cmd line ⟨i, [sent], answer⟩ ↔
      (i = rxErrNone → cmd.pktResponse ≠ 0 → Answered cmd line answer) ∧
        (i = rxErrNone → cmd.response = 0x06 → line answer = some 0x06) := by
  -- With one request, none can be another one.
  constructor
  · exact fun given => ⟨given.answered, given.acknowledged⟩
  · rintro ⟨answered, acknowledged⟩
    exact ⟨by simp, answered, acknowledged⟩

/-- With one more attempt before it a call is reliable when this attempt sent the same. -/
theorem reliable_prepend {cmd : RXcmd} {line : Nat → Option UInt8} {run : RxRun}
    {sent : List UInt8} (some : run.sent ≠ []) :
    Reliable cmd line (run.prepend sent) ↔
      run.sent.head? = .some sent ∧ Reliable cmd line run := by
  -- The requests are equal when the first two are, and the later ones to the second.
  obtain ⟨first, rest, shape⟩ := List.exists_cons_of_ne_nil some
  constructor
  · rintro ⟨same, answered, acknowledged⟩
    have equal : ∀ other ∈ run.sent, sent = other := fun other member =>
      Option.some.inj (same other (List.mem_cons_of_mem _ member))
    have head : run.sent.head? = .some sent := by
      rw [shape, List.head?_cons, ← equal first (by simp [shape])]
    exact ⟨head, fun other member => by rw [head, equal other member], answered, acknowledged⟩
  · rintro ⟨head, same, answered, acknowledged⟩
    refine ⟨fun other member => ?_, answered, acknowledged⟩
    rcases List.mem_cons.mp member with rfl | member
    · rfl
    · exact head.symm.trans (same other member)

/--
What comes of an attempt.

A noticed fault makes way for the next attempt, or ends the last one.
Anything else ends the call, but for a length that overflows, which leaves the defined behaviour.
-/
inductive AttemptEnd (fuel : Nat) (cmd : RXcmd) (serial : Serial) (port sent : Port)
    (bytes : List UInt8) : Prop
  | faulty {next : Port} {i : Int} (fault : Fault cmd serial.line sent next)
      (again : ∀ tryAgain, rxAttempt fuel cmd serial (some tryAgain) port =
        (tryAgain next).map (RxRun.prepend bytes))
      (unsettled : ∀ tries, ¬ Settles cmd serial.line (tries + 1) sent.place)
      (last : rxAttempt fuel cmd serial none port = some ⟨i, [bytes], sent.place⟩)
      (right : Reliable cmd serial.line ⟨i, [bytes], sent.place⟩ ↔
        Settles cmd serial.line 0 sent.place)
  | final {i : Int} (clean : ∀ next, ¬ Fault cmd serial.line sent next)
      (ends : ∀ tryAgain, rxAttempt fuel cmd serial tryAgain port = some ⟨i, [bytes], sent.place⟩)
      (right : ∀ tries, Reliable cmd serial.line ⟨i, [bytes], sent.place⟩ ↔
        Settles cmd serial.line tries sent.place)
  | undefined (clean : ∀ next, ¬ Fault cmd serial.line sent next)
      (stops : ∀ tryAgain, rxAttempt fuel cmd serial tryAgain port = none)
      (unsettled : ∀ tries, ¬ Settles cmd serial.line tries sent.place)

section Attempt

variable {fuel : Nat} {cmd : RXcmd} {serial : Serial} {port sent : Port} {bytes : List UInt8}

/-- The first two bytes of the answer say what comes of a command that is acknowledged. -/
theorem settles_acknowledged (plain : cmd.pktResponse = 0) (acks : cmd.response = 0x06)
    (line : Nat → Option UInt8) (tries place : Nat) :
    Settles cmd line tries place ↔ line place = some 0x06 ∨ NotAccepted line place ∧
      line (place + 1) ≠ some 0 ∧ (Again (line (place + 1)) → tries = 0) := by
  -- Such a command has no packet to be answered with.
  rw [Settles, if_neg (not_not_intro plain), if_pos acks]

/-- One attempt at such a command is right when success means that the acknowledgement came. -/
theorem reliable_acknowledged (plain : cmd.pktResponse = 0) (acks : cmd.response = 0x06)
    (line : Nat → Option UInt8) (i : Int) (answer : Nat) :
    Reliable cmd line ⟨i, [bytes], answer⟩ ↔ (i = rxErrNone → line answer = some 0x06) := by
  -- There is no packet to be right about.
  rw [reliable_single]
  exact ⟨fun given none => given.2 none acks,
    fun given => ⟨fun _ some => absurd plain some, fun none _ => given none⟩⟩

section Acknowledged

variable (made : sendCommand fuel cmd serial.ready port = some (bytes, sent))
  (plain : cmd.pktResponse = 0) (acks : cmd.response = 0x06)

include made plain acks

/-- An acknowledgement, and the byte that asks for the ID, end such an attempt at once. -/
theorem rxAttempt_ended (accepted : ¬ NotAccepted serial.line sent.place)
    (tryAgain : Option (Port → Option RxRun)) :
    rxAttempt fuel cmd serial tryAgain port = some ⟨rxErrNone, [bytes], sent.place⟩ := by
  -- The first byte is the expected one, so the branches for an error are not taken.
  have ack : (cmd.response.toNat : Int) = rxErrAck := by
    rw [acks]
    rfl
  unfold rxAttempt
  simp only [made, if_neg (not_not_intro plain), ne_eq, not_true, if_false, if_pos ack]
  -- Both bytes make the call return that there was no error.
  by_cases acked : (serialRead serial.line sent).1 = rxErrAck
  · rw [if_pos acked]
  · have id : (serialRead serial.line sent).1 = rxErrIdRequired := by
      refine (serialRead_eq_iff 0x16).mpr ?_
      by_contra other
      exact accepted ⟨fun given => acked ((serialRead_eq_iff 0x06).mpr given), other⟩
    rw [if_neg acked, if_pos id]

/-- Behind any other byte the next one is the error, and decides on a further attempt. -/
theorem rxAttempt_refused (refused : NotAccepted serial.line sent.place)
    (tryAgain : Option (Port → Option RxRun)) :
    rxAttempt fuel cmd serial tryAgain port =
      let second := serialRead serial.line (serialRead serial.line sent).2
      (if Again (serial.line (sent.place + 1)) then tryAgain else none).elim
        (some ⟨second.1, [bytes], sent.place⟩)
        fun next => (next second.2).map (RxRun.prepend bytes) := by
  -- The first byte is not the acknowledgement, so that a second one is read.
  have ack : (cmd.response.toNat : Int) = rxErrAck := by
    rw [acks]
    rfl
  have notAck : (serialRead serial.line sent).1 ≠ rxErrAck := fun same =>
    refused.1 ((serialRead_eq_iff 0x06).mp same)
  have notId : (serialRead serial.line sent).1 ≠ rxErrIdRequired := fun same =>
    refused.2 ((serialRead_eq_iff 0x16).mp same)
  -- The error codes that the source compares with are those of a command to be sent again.
  have again : ((serialRead serial.line (serialRead serial.line sent).2).1 = rxErrTimeout ∨
      (serialRead serial.line (serialRead serial.line sent).2).1 = rxErrUndefinedCmd) ↔
      Again (serial.line (sent.place + 1)) :=
    or_congr serialRead_eq_timeout (serialRead_eq_iff 0x80)
  unfold rxAttempt
  simp only [made, if_neg (not_not_intro plain), ne_eq, not_true, if_false, if_pos ack,
    if_neg notAck, if_neg notId, again]
  generalize (if Again (serial.line (sent.place + 1)) then tryAgain else none) = next
  cases next with
  | none => rfl
  | some next => rfl

/-- An attempt that is ended at once is right when the byte is the acknowledgement. -/
theorem attemptEnd_ended (accepted : ¬ NotAccepted serial.line sent.place) :
    AttemptEnd fuel cmd serial port sent bytes := by
  -- The result is no error, whichever of the two bytes it was.
  refine .final (fun after fault => ?_) (rxAttempt_ended made plain acks accepted) fun tries => ?_
  · cases fault with
    | unheard _ _ first => exact accepted first
    | _ => exact absurd plain ‹_›
  · rw [reliable_acknowledged plain acks, settles_acknowledged plain acks]
    constructor
    · exact fun given => .inl (given rfl)
    · rintro (acked | ⟨other, -⟩) -
      · exact acked
      · exact absurd other accepted

/-- An attempt whose error asks for it makes way for the next one. -/
theorem attemptEnd_lost (refused : NotAccepted serial.line sent.place)
    (lost : Again (serial.line (sent.place + 1))) :
    AttemptEnd fuel cmd serial port sent bytes := by
  -- Neither of the two errors is a zero, so the last attempt reports it.
  have fails : (serialRead serial.line (serialRead serial.line sent).2).1 ≠ rxErrNone := by
    intro none
    have zero : serial.line (sent.place + 1) = some 0 := (serialRead_eq_iff 0).mp none
    rw [zero] at lost
    rcases lost with lost | lost <;> cases lost
  refine .faulty (.unheard plain acks refused lost) (fun tryAgain => ?_) (fun tries given => ?_)
    (i := (serialRead serial.line (serialRead serial.line sent).2).1) ?_ ?_
  · rw [rxAttempt_refused made plain acks refused, if_pos lost, Option.elim_some]
    rfl
  · rcases (settles_acknowledged plain acks _ _ _).mp given with acked | ⟨-, -, none⟩
    · exact refused.1 acked
    · exact absurd (none lost) (Nat.succ_ne_zero tries)
  · rw [rxAttempt_refused made plain acks refused, ite_self, Option.elim_none]
  · rw [reliable_acknowledged plain acks, settles_acknowledged plain acks]
    refine iff_of_true (fun none => absurd none fails) (.inr ⟨refused, ?_, fun _ => rfl⟩)
    exact fun zero => fails ((serialRead_eq_iff 0).mpr zero)

/-- An attempt whose error does not ask for another one is right when it is an error. -/
theorem attemptEnd_refused (refused : NotAccepted serial.line sent.place)
    (kept : ¬ Again (serial.line (sent.place + 1))) :
    AttemptEnd fuel cmd serial port sent bytes := by
  -- A zero is taken for success, although no acknowledgement came.
  have error : (serialRead serial.line (serialRead serial.line sent).2).1 = rxErrNone ↔
      serial.line (sent.place + 1) = some 0 := serialRead_eq_iff 0
  refine .final (i := (serialRead serial.line (serialRead serial.line sent).2).1)
    (fun after fault => ?_) (fun tryAgain => ?_) fun tries => ?_
  · cases fault with
    | unheard _ _ _ error => exact kept error
    | _ => exact absurd plain ‹_›
  · rw [rxAttempt_refused made plain acks refused, if_neg kept, Option.elim_none]
  · rw [reliable_acknowledged plain acks, settles_acknowledged plain acks]
    constructor
    · refine fun given => .inr ⟨refused, fun zero => ?_, fun again => absurd again kept⟩
      exact refused.1 (given (error.mpr zero))
    · rintro (acked | ⟨-, other, -⟩) none
      · exact acked
      · exact absurd (error.mp none) other

/-- An attempt at a command that is acknowledged. -/
theorem attemptEnd_acknowledged : AttemptEnd fuel cmd serial port sent bytes := by
  -- The first byte decides: one that ends the attempt, or another byte or none.
  by_cases refused : NotAccepted serial.line sent.place
  · by_cases lost : Again (serial.line (sent.place + 1))
    · exact attemptEnd_lost made plain acks refused lost
    · exact attemptEnd_refused made plain acks refused lost
  · exact attemptEnd_ended made plain acks refused

end Acknowledged

variable (made : sendCommand fuel cmd serial.ready port = some (bytes, sent))

include made

/-- An attempt at a command that is answered with a packet. -/
theorem attemptEnd_packet
    (sized : cmd.pktResponse = 4 ∨ cmd.pktResponse = 2 ∨ cmd.pktResponse = 1)
    (noAck : cmd.response ≠ 0x06) : AttemptEnd fuel cmd serial port sent bytes := by
  -- The response starts with a code that is not the acknowledgement, and so the packet is read.
  have packet : cmd.pktResponse ≠ 0 := by omega
  have other : (cmd.response.toNat : Int) ≠ rxErrAck := fun same =>
    noAck (UInt8.toNat_inj.mp (Int.ofNat.inj same))
  -- Without an acknowledgement the call returns that there was no error.
  have right : ∀ tries, Reliable cmd serial.line ⟨rxErrNone, [bytes], sent.place⟩ ↔
      Settles cmd serial.line tries sent.place := fun tries => by
    rw [reliable_single, Settles, if_pos packet]
    exact ⟨fun given => given.1 rfl packet,
      fun answered => ⟨fun _ _ => answered, fun _ ack => absurd ack noAck⟩⟩
  cases ran : rxReadPacket cmd serial.line sent with
  | none =>
    refine .undefined (fun next fault => ?_) (fun tryAgain => ?_) fun tries settles => ?_
    · obtain ⟨_, read, -⟩ := fault.readPacket sized
      cases ran.symm.trans read
    · unfold rxAttempt
      simp only [made, if_pos packet, ran]
    · rw [Settles, if_pos packet] at settles
      obtain ⟨_, read⟩ := readPacket_of_answered sized settles
      cases ran.symm.trans read
  | some outcome =>
    obtain ⟨i, next⟩ := outcome
    by_cases failed : i ≠ rxErrNone
    · refine .faulty (fault_of_readPacket sized ran failed) (fun tryAgain => ?_)
        (fun tries settles => ?_) ?_ (right 0)
      · unfold rxAttempt
        simp only [made, if_pos packet, ran, if_pos failed]
      · rw [Settles, if_pos packet] at settles
        obtain ⟨_, read⟩ := readPacket_of_answered sized settles
        cases ran.symm.trans read
        exact failed rfl
      · unfold rxAttempt
        simp only [made, if_pos packet, ran, ite_self, if_neg other]
    · refine .final (fun after fault => ?_) (fun tryAgain => ?_) right
      · obtain ⟨_, read, error⟩ := fault.readPacket sized
        cases ran.symm.trans read
        exact failed error
      · unfold rxAttempt
        simp only [made, if_pos packet, ran, if_neg failed, if_neg other]

/-- An attempt at a command that is not answered. -/
theorem attemptEnd_unanswered (plain : cmd.pktResponse = 0) (noAck : cmd.response ≠ 0x06) :
    AttemptEnd fuel cmd serial port sent bytes := by
  -- Nothing is read, so the attempt is the last one.
  have packet : ¬ cmd.pktResponse ≠ 0 := not_not_intro plain
  have other : (cmd.response.toNat : Int) ≠ rxErrAck := fun same =>
    noAck (UInt8.toNat_inj.mp (Int.ofNat.inj same))
  refine .final (i := rxErrNone) (fun next fault => ?_) (fun tryAgain => ?_) fun tries => ?_
  · cases fault with
    | unheard plain acks => exact noAck acks
    | _ => exact absurd plain ‹_›
  · unfold rxAttempt
    simp only [made, if_neg packet, ne_eq, not_true, if_false, if_neg other]
  · rw [reliable_single, Settles, if_neg packet, if_neg noAck]
    exact iff_of_true ⟨fun _ some => absurd plain some, fun _ ack => absurd ack noAck⟩ trivial

end Attempt

/-- A call that came to an end has sent its request. -/
theorem exists_sent {fuel tries : Nat} {cmd : RXcmd} {serial : Serial} {port : Port} {run : RxRun}
    (ran : rxAttempts fuel cmd serial tries port = some run) :
    ∃ bytes sent, sendCommand fuel cmd serial.ready port = some (bytes, sent) := by
  -- A request that cannot be sent ends the call without a result.
  cases made : sendCommand fuel cmd serial.ready port with
  | none =>
    cases tries <;>
    · simp only [rxAttempts, rxAttempt, made] at ran
      cases ran
  | some result => exact ⟨result.1, result.2, rfl⟩

section Attempts

variable {cmd : RXcmd} (member : cmd ∈ rxcmds) {serial : Serial}

include member

/-- What comes of an attempt at any command. -/
theorem attemptEnd {fuel : Nat} {port sent : Port} {bytes : List UInt8}
    (made : sendCommand fuel cmd serial.ready port = some (bytes, sent)) :
    AttemptEnd fuel cmd serial port sent bytes := by
  -- The table has no command with a packet that is acknowledged too.
  rcases (kind_of_mem member).1 with plain | ⟨sized, noAck, -⟩
  · by_cases acks : cmd.response = 0x06
    · exact attemptEnd_acknowledged made plain acks
    · exact attemptEnd_unanswered made plain acks
  · exact attemptEnd_packet made sized noAck

/-- A fault leaves one state behind. -/
theorem Fault.unique {line : Nat → Option UInt8} {port first second : Port}
    (one : Fault cmd line port first) (other : Fault cmd line port second) : first = second := by
  -- Without a packet there is one fault, and with one the answer that was read decides.
  rcases (kind_of_mem member).1 with plain | ⟨sized, -⟩
  · cases one with
    | unheard =>
      cases other with
      | unheard => rfl
      | _ => exact absurd plain ‹_›
    | _ => exact absurd plain ‹_›
  · obtain ⟨_, read, -⟩ := one.readPacket sized
    obtain ⟨_, again, -⟩ := other.readPacket sized
    cases read.symm.trans again
    rfl

/-- The first attempt of a call sends its request. -/
theorem head_sent {fuel tries : Nat} {port sent : Port} {bytes : List UInt8} {run : RxRun}
    (made : sendCommand fuel cmd serial.ready port = some (bytes, sent))
    (ran : rxAttempts fuel cmd serial tries port = some run) : run.sent.head? = some bytes := by
  -- Whatever comes of the attempt, its request is the first one of the run.
  cases attemptEnd member made with
  | faulty fault again unsettled last right =>
    cases tries with
    | zero =>
      rw [rxAttempts, last] at ran
      cases ran
      rfl
    | succ tries =>
      rw [rxAttempts, again] at ran
      obtain ⟨rest, -, rfl⟩ := Option.map_eq_some_iff.mp ran
      rfl
  | final clean ends right =>
    cases tries <;>
    · rw [rxAttempts, ends] at ran
      cases ran
      rfl
  | undefined clean stops unsettled =>
    cases tries <;>
    · rw [rxAttempts, stops] at ran
      cases ran

/-- The next attempt sends the same just when its packet and the number of its zeros are. -/
theorem requests_eq_iff {port next : Port} {after : Nat}
    (request : cmd.pktCmd ≠ 0 → 0 ≤ port.pktLength ∧ port.pktLength < 2 ^ 31)
    (fault : Fault cmd serial.line { (sendBlock cmd port).2 with polls := after } next)
    {nuls others later : Nat} (waits : Waits cmd serial.ready port.polls nuls after)
    (waitsAgain : Waits cmd serial.ready next.polls others later) :
    (sendBlock cmd next).1 ++ List.replicate others 0 =
        (sendBlock cmd port).1 ++ List.replicate nuls 0 ↔
      Keeps cmd port next ∧ others = nuls := by
  -- Zeros follow the request for programming only, whose packet no fault changes.
  obtain ⟨same, polled⟩ := sendBlock_eq_iff member request fault
  unfold Waits at waits waitsAgain
  by_cases seven : cmd.pktCmd = 7
  · rw [same.mpr (polled seven), List.append_cancel_left_eq, List.replicate_left_inj]
    exact ⟨fun equal => ⟨polled seven, equal⟩, fun both => both.2⟩
  · rw [if_neg seven] at waits waitsAgain
    rw [waits.1, waitsAgain.1, List.append_cancel_right_eq, same]
    exact ⟨fun keeps => ⟨keeps, rfl⟩, fun both => both.1⟩

/-- A call that was reliable was served as it should be. -/
theorem recovers_of_reliable {fuel tries : Nat} {port sent : Port} {nuls : Nat} {run : RxRun}
    (request : cmd.pktCmd ≠ 0 → 0 ≤ port.pktLength ∧ port.pktLength < 2 ^ 31)
    (made : sendCommand fuel cmd serial.ready port =
      some ((sendBlock cmd port).1 ++ List.replicate nuls 0, sent))
    (ran : rxAttempts fuel cmd serial tries port = some run)
    (reliable : Reliable cmd serial.line run) : Recovers cmd serial nuls tries port := by
  -- Induction on the attempts: the call returns, or the command is sent again.
  induction tries generalizing port sent run with
  | zero =>
    obtain ⟨count, after, waits, bytes, rfl⟩ := sendCommand_some made
    obtain rfl : nuls = count := by simpa using bytes
    obtain ⟨pkt, shape, -⟩ := sendBlock_snd cmd port
    have place : (sendBlock cmd port).2.place = port.place := by rw [shape]
    refine .last waits ?_
    cases attemptEnd member made with
    | faulty fault again unsettled last right =>
      rw [rxAttempts, last] at ran
      cases ran
      exact place ▸ right.mp reliable
    | final clean ends right =>
      rw [rxAttempts, ends] at ran
      cases ran
      exact place ▸ (right 0).mp reliable
    | undefined clean stops unsettled =>
      rw [rxAttempts, stops] at ran
      cases ran
  | succ tries ih =>
    obtain ⟨count, after, waits, bytes, rfl⟩ := sendCommand_some made
    obtain rfl : nuls = count := by simpa using bytes
    obtain ⟨pkt, shape, -⟩ := sendBlock_snd cmd port
    have place : (sendBlock cmd port).2.place = port.place := by rw [shape]
    cases attemptEnd member made with
    | @faulty next i fault again unsettled last right =>
      rw [rxAttempts, again] at ran
      obtain ⟨rest, later, rfl⟩ := Option.map_eq_some_iff.mp ran
      obtain ⟨sentNext, after, madeNext⟩ := exists_sent later
      obtain ⟨others, end_, waitsNext, rfl, rfl⟩ := sendCommand_some madeNext
      have first := head_sent member madeNext later
      have some : rest.sent ≠ [] := fun empty => by simp [empty] at first
      obtain ⟨head, restReliable⟩ := (reliable_prepend some).mp reliable
      -- The next attempt sends the same as this one, so the packet is still there.
      have same := Option.some.inj (first.symm.trans head)
      obtain ⟨keeps, rfl⟩ := (requests_eq_iff member request fault waits waitsNext).mp same
      refine .again waits fault keeps (ih (fun packet => ?_) madeNext later restReliable)
      rcases keeps with plain | ⟨length, -⟩
      · exact absurd plain packet
      · rw [length]
        exact request packet
    | final clean ends right =>
      rw [rxAttempts, ends] at ran
      cases ran
      exact .last waits (place ▸ (right _).mp reliable)
    | undefined clean stops unsettled =>
      rw [rxAttempts, stops] at ran
      cases ran

/-- A call that is served as it should be ends, and is reliable. -/
theorem reliable_of_recovers {tries nuls : Nat} {port : Port}
    (recovers : Recovers cmd serial nuls tries port)
    (request : cmd.pktCmd ≠ 0 → 0 ≤ port.pktLength ∧ port.pktLength < 2 ^ 31)
    (room : Room cmd port) :
    ∃ enough, ∀ fuel, enough ≤ fuel → ∃ run, rxAttempts fuel cmd serial tries port = some run ∧
      run.sent.head? = some ((sendBlock cmd port).1 ++ List.replicate nuls 0) ∧
      Reliable cmd serial.line run := by
  -- The induction is on the faults before the last answer.
  induction recovers with
  | @last tries after port waits settles =>
    obtain ⟨enough, made⟩ := sendCommand_of_waits room waits
    obtain ⟨pkt, shape, -⟩ := sendBlock_snd cmd port
    have place : (sendBlock cmd port).2.place = port.place := by rw [shape]
    rw [← place] at settles
    refine ⟨enough, fun fuel more => ?_⟩
    cases attemptEnd member (made fuel more) with
    | faulty fault again unsettled last right =>
      cases tries with
      | zero => exact ⟨_, last, rfl, right.mpr settles⟩
      | succ tries => exact absurd settles (unsettled tries)
    | final clean ends right =>
      cases tries with
      | zero => exact ⟨_, ends none, rfl, (right 0).mpr settles⟩
      | succ tries => exact ⟨_, ends _, rfl, (right (tries + 1)).mpr settles⟩
    | undefined clean stops unsettled => exact absurd settles (unsettled tries)
  | @again tries after port next waits fault keeps rest ih =>
    have requestNext : cmd.pktCmd ≠ 0 → 0 ≤ next.pktLength ∧ next.pktLength < 2 ^ 31 := by
      intro packet
      rcases keeps with plain | ⟨length, -⟩
      · exact absurd plain packet
      · rw [length]
        exact request packet
    obtain ⟨enough, made⟩ := sendCommand_of_waits room waits
    obtain ⟨later, runs⟩ := ih requestNext (room.again fault keeps)
    refine ⟨max enough later, fun fuel more => ?_⟩
    obtain ⟨run, ran, head, reliable⟩ := runs fuel (by omega)
    have block : (sendBlock cmd next).1 = (sendBlock cmd port).1 :=
      (sendBlock_eq_iff member request fault).1.mpr keeps
    cases attemptEnd member (made fuel (by omega)) with
    | faulty other again unsettled last right =>
      obtain rfl := Fault.unique member other fault
      refine ⟨run.prepend _, ?_, rfl, ?_⟩
      · rw [rxAttempts, again, ran]
        rfl
      · have some : run.sent ≠ [] := fun empty => by simp [empty] at head
        rw [block] at head
        exact (reliable_prepend some).mpr ⟨head, reliable⟩
    | final clean ends right => exact absurd fault (clean next)
    | undefined clean stops unsettled => exact absurd fault (clean next)

end Attempts

/-- Draining ends behind the first timeout. -/
theorem serialDrain_some {line : Nat → Option UInt8} {fuel place after : Nat}
    (drained : serialDrain line fuel place = some after) :
    ∃ k, (∀ j < k, line (place + j) ≠ none) ∧ line (place + k) = none ∧ after = place + k + 1 := by
  -- The induction is on the fuel, of which every byte takes one.
  induction fuel generalizing place with
  | zero => cases drained
  | succ fuel ih =>
    rw [serialDrain] at drained
    cases read : line place with
    | none =>
      rw [read] at drained
      cases drained
      exact ⟨0, fun j below => absurd below (Nat.not_lt_zero j), read, rfl⟩
    | some byte =>
      rw [read] at drained
      obtain ⟨k, before, silent, rfl⟩ := ih drained
      have shifted : ∀ j, place + (j + 1) = place + 1 + j := fun j => by omega
      refine ⟨k + 1, fun j below => ?_, by rw [shifted]; exact silent, by omega⟩
      rcases j with _ | j
      · simp [read]
      · rw [shifted]
        exact before j (by omega)

/-- A line that falls silent is drained. -/
theorem serialDrain_of_silent {line : Nat → Option UInt8} {k place fuel : Nat}
    (before : ∀ j < k, line (place + j) ≠ none) (silent : line (place + k) = none)
    (enough : k < fuel) : serialDrain line fuel place = some (place + k + 1) := by
  -- The induction is on the fuel, and the timeout comes before it ends.
  induction fuel generalizing k place with
  | zero => exact absurd enough (Nat.not_lt_zero k)
  | succ fuel ih =>
    rw [serialDrain]
    rcases k with _ | k
    · rw [Nat.add_zero] at silent
      rw [silent]
      rfl
    · obtain ⟨byte, read⟩ := Option.ne_none_iff_exists'.mp (before 0 (Nat.succ_pos k))
      have shifted : ∀ j, place + (j + 1) = place + 1 + j := fun j => by omega
      have later : ∀ j < k, line (place + 1 + j) ≠ none := fun j below => by
        rw [← shifted]
        exact before (j + 1) (by omega)
      have last : place + (k + 1) + 1 = place + 1 + k + 1 := by omega
      rw [shifted] at silent
      rw [Nat.add_zero] at read
      rw [read, last]
      exact ih later silent (by omega)

/--
A call of a command is reliable just when the line falls silent and then serves the command: it
becomes ready where that is asked for, after as many zeros each time, the faults before the last
answer are noticed and leave the request alone, and the last answer is as it should be.

A request with a packet needs a buffer; `need_pkt_size` leaves none when only size 0 was asked for.
-/
theorem rxCommand_reliable_iff {command : UInt8} {cmd : RXcmd}
    (known : lookupCmd command = some cmd) (serial : Serial) (port : Port)
    (request : cmd.pktCmd ≠ 0 → 0 ≤ port.pktLength ∧ port.pktLength < 2 ^ 31) :
    (∃ fuel run, rxCommand fuel command serial port = some run ∧
        Reliable cmd serial.line run) ↔ Served cmd serial port := by
  -- Draining moves the place only, behind which the attempts begin.
  have member : cmd ∈ rxcmds := List.mem_of_find?_eq_some known
  unfold Served rxCommand
  rw [known]
  dsimp only
  constructor
  · rintro ⟨fuel, run, ran, reliable⟩
    cases drained : serialDrain serial.line fuel port.place with
    | none =>
      rw [drained] at ran
      cases ran
    | some place =>
      rw [drained] at ran
      obtain ⟨k, before, silent, rfl⟩ := serialDrain_some drained
      obtain ⟨bytes, sent, made⟩ := exists_sent ran
      have room := room_of_sendCommand made
      obtain ⟨nuls, after, waits, rfl, rfl⟩ := sendCommand_some made
      refine ⟨room, k, nuls, before, silent, ?_⟩
      exact recovers_of_reliable member request made ran reliable
  · rintro ⟨room, k, nuls, before, silent, recovers⟩
    obtain ⟨enough, runs⟩ := reliable_of_recovers member recovers request room
    obtain ⟨run, ran, -, reliable⟩ := runs (max enough (k + 1)) (by omega)
    refine ⟨max enough (k + 1), run, ?_, reliable⟩
    rw [serialDrain_of_silent before silent (by omega)]
    exact ran

/-- A port before its first command, with no buffer. -/
def emptyPort : Port := ⟨fun _ => 0, 0, 0, 10, 0, 0⟩

/-- A line on which nothing comes in makes an inquiry return that there was no error. -/
theorem not_reliable_silent :
    ¬ ∃ fuel run, rxCommand fuel 0x20 ⟨fun _ => none, fun _ => false⟩ emptyPort = some run ∧
      Reliable ⟨0x30, 0, 1, 0, 0x20⟩ (fun _ => none) run := by
  -- All six attempts run into the timeout, and the last result is that of no error.
  rintro ⟨fuel, run, ran, reliable⟩
  cases fuel with
  | zero => cases ran
  | succ fuel =>
    have result : rxCommand (fuel + 1) 0x20 ⟨fun _ => none, fun _ => false⟩ emptyPort =
        some ⟨rxErrNone, List.replicate 6 [0x20], 6⟩ := rfl
    obtain rfl := Option.some.inj (result.symm.trans ran)
    obtain ⟨given, payload, checksum, -, -, -, delivered, -, -⟩ :=
      reliable.answered rfl (by decide)
    exact absurd (delivered_cons.mp delivered).1 nofun

/-- A port with a packet of nine bytes for a read of memory. -/
def readPort : Port := ⟨fun i => UInt8.ofInt i, 9, 9, 10, 0, 0⟩

/-- A read of one byte, which is answered after a timeout. -/
def readLine (place : Nat) : Option UInt8 :=
  [none, none, some 0x52, some 0x00, some 0x00, some 0x00, some 0x01, some 0x3f,
    some 0x6e][place]?.join

/-- A read of memory, whose request has a packet. -/
theorem rxCommand_reliable_iff_read :
    (∃ fuel run, rxCommand fuel 0x52 ⟨readLine, fun _ => false⟩ readPort = some run ∧
        Reliable ⟨0x52, 1, 4, 0, 0x52⟩ readLine run) ↔
      Served ⟨0x52, 1, 4, 0, 0x52⟩ ⟨readLine, fun _ => false⟩ readPort :=
  rxCommand_reliable_iff (by decide) _ readPort (by decide)

end OpenwrtMisc.RenesasFlash
