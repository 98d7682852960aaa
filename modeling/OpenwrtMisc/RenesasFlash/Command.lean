import OpenwrtMisc.Lib.Ber
import OpenwrtMisc.Lib.CString
import OpenwrtMisc.Lib.Patch
import Mathlib.Logic.Function.Basic

/-! The commands of rxlib over a serial line: a request, its answer, and the retries. -/

namespace OpenwrtMisc.RenesasFlash

open Ber

/-- `RXcmd`. -/
structure RXcmd where
  /-- If 0x06, standard ack or nak. -/
  response : UInt8
  /-- If not zero, number of length bytes. -/
  pktCmd : Nat
  pktResponse : Nat
  longTimeout : Nat
  cmd : UInt8
  deriving DecidableEq, Repr

/-- `rxcmds`. -/
def rxcmds : List RXcmd :=
  [⟨0x00, 0, 0, 0, 0x00⟩, ⟨0x06, 0, 0, 0, 0x06⟩, ⟨0xe6, 0, 0, 0, 0x55⟩,
    ⟨0x30, 0, 1, 0, 0x20⟩, ⟨0x06, 1, 0, 0, 0x10⟩, ⟨0x31, 0, 1, 0, 0x21⟩, ⟨0x06, 1, 0, 0, 0x11⟩,
    ⟨0x32, 0, 1, 0, 0x22⟩, ⟨0x33, 0, 1, 0, 0x23⟩, ⟨0x34, 0, 1, 0, 0x24⟩, ⟨0x35, 0, 1, 0, 0x25⟩,
    ⟨0x36, 0, 2, 0, 0x26⟩, ⟨0x37, 0, 1, 0, 0x27⟩, ⟨0x3a, 0, 1, 0, 0x2a⟩, ⟨0x3b, 0, 1, 0, 0x2b⟩,
    ⟨0x06, 1, 0, 0, 0x3f⟩, ⟨0x06, 0, 0, 1, 0x40⟩, ⟨0x06, 1, 0, 0, 0x60⟩,
    ⟨0x06, 0, 0, 0, 0x42⟩, ⟨0x06, 0, 0, 0, 0x43⟩, ⟨0x06, 7, 0, 10, 0x50⟩, ⟨0x06, 0, 0, 0, 0x48⟩,
    ⟨0x06, 1, 0, 1, 0x58⟩,
    ⟨0x52, 1, 4, 0, 0x52⟩,
    ⟨0x5f, 0, 1, 0, 0x4f⟩, ⟨0x5a, 0, 1, 1, 0x4a⟩, ⟨0x5b, 0, 1, 1, 0x4b⟩, ⟨0x06, 0, 0, 1, 0x4c⟩,
    ⟨0x06, 0, 0, 1, 0x4d⟩,
    ⟨0x00, 1, 0, 0, 0x71⟩, ⟨0x06, 1, 0, 0, 0x77⟩, ⟨0x06, 0, 0, 0, 0x7a⟩, ⟨0x06, 0, 0, 0, 0x75⟩]

/-- `lookup_cmd`, where nothing is a null pointer. -/
def lookupCmd (command : UInt8) : Option RXcmd := rxcmds.find? (·.cmd = command)

/-- The results that are looked at. -/
def rxErrNone : Int := 0x00
def rxErrAck : Int := 0x06
def rxErrChecksum : Int := 0x11
def rxErrIdRequired : Int := 0x16
def rxErrUndefinedCmd : Int := 0x80
def rxErrTimeout : Int := -1

/--
What a serial line delivers.

Each read gets a byte or runs into the timeout; `ready` is what `serial_ready` returns.
-/
structure Serial where
  line : Nat → Option UInt8
  ready : Nat → Bool

/--
The packet buffer and its length, with the timeout, the reads and the calls of `serial_ready`.

Indices count from `pkt`: five bytes in front of it belong to the buffer, and one behind its size.
A buffer and a size above 0 come together, so `pkt` is the null pointer as long as the size is 0.
-/
structure Port where
  pkt : Int → UInt8
  pktLength : Int
  pktBufSize : Int
  timeout : Nat
  place : Nat
  polls : Nat

/-- `need_pkt_size`, whose size of the block is an `int`; a larger buffer keeps its bytes. -/
def needPktSize (len : Int) (port : Port) : Option Port :=
  if port.pktBufSize < len then
    if len + 6 < 2 ^ 31 then some { port with pktLength := len, pktBufSize := len } else none
  else some { port with pktLength := len }

/-- `serial_read`. -/
def serialRead (line : Nat → Option UInt8) (port : Port) : Int × Port :=
  ((line port.place).elim rxErrTimeout fun ch => (ch.toNat : Int),
    { port with place := port.place + 1 })

/-- The length of a packet, byte by byte; without an end at a timeout. -/
def readLength (line : Nat → Option UInt8) : Nat → Nat → Port → Option Nat × Port
  | 0, csum, port => (some csum, port)
  | turns + 1, csum, port =>
    let (b, port) := serialRead line port
    if b = -1 then (none, port)
    else readLength line turns (csum + (UInt8.ofInt b).toNat)
      { port with pktLength := (port.pktLength * 256 + b).bmod (2 ^ 32) }

/-- The loop that reads the bytes of a packet, of which a timeout is one as well. -/
def readPayload (line : Nat → Option UInt8) : Nat → Nat → Nat → Port → Nat × Port
  | 0, _, csum, port => (csum, port)
  | turns + 1, i, csum, port =>
    let (b, port) := serialRead line port
    let v := UInt8.ofInt b
    readPayload line turns (i + 1) (csum + v.toNat)
      { port with pkt := Function.update port.pkt i v }

/-- `rx_read_packet`, nothing when the size of its buffer or the sum overflows, which are `int`s. -/
def rxReadPacket (cmd : RXcmd) (line : Nat → Option UInt8) (port : Port) : Option (Int × Port) :=
  let (code, port) := serialRead line port
  if code = -1 then some (rxErrTimeout, port)
  else
    let csum := (UInt8.ofInt code).toNat
    if code ≠ cmd.response.toNat then some (serialRead line port)
    else
      let port := { port with pktLength := 0 }
      let (csum, port) :=
        if cmd.pktResponse = 4 ∨ cmd.pktResponse = 2 ∨ cmd.pktResponse = 1 then
          readLength line cmd.pktResponse csum port
        else (some csum, port)
      match csum with
      | none => some (rxErrTimeout, port)
      | some csum =>
        match needPktSize port.pktLength port with
        | none => none
        | some port =>
          let (csum, port) := readPayload line port.pktLength.toNat 0 csum port
          let (checksum, port) := serialRead line port
          let csum := csum + (UInt8.ofInt checksum).toNat
          if 2 ^ 31 ≤ csum then none
          else if csum % 256 ≠ 0 then some (rxErrChecksum, port) else some (rxErrNone, port)

/-- The bytes of a packet that has some length. -/
def payloadOf (pkt : Int → UInt8) (len : Int) : List UInt8 :=
  (List.range len.toNat).map fun i : Nat => pkt i

/-- The sum of bytes. -/
def byteSum (bytes : List UInt8) : Nat := (bytes.map UInt8.toNat).sum

/-- `serial_write_block`, whose loop ends when its `int` comes to zero. -/
def writeBlock (pkt : Int → UInt8) (start len : Int) : List UInt8 :=
  (List.range (len % 2 ^ 32).toNat).map fun i : Nat => pkt (start + i)

/-- The switch that sends the request: what it sends, and the buffer after it. -/
def sendBlock (cmd : RXcmd) (port : Port) : List UInt8 × Port :=
  let len := port.pktLength
  match cmd.pktCmd with
  | 0 => ([cmd.cmd], port)
  | 1 =>
    let pkt := Function.update port.pkt (-2) cmd.cmd
    let pkt := Function.update pkt (-1) (UInt8.ofInt len)
    let csum : Int := cmd.cmd.toNat + len + byteSum (payloadOf pkt len)
    let pkt := Function.update pkt len (UInt8.ofInt (-csum))
    (writeBlock pkt (-2) (len + 3), { port with pkt := pkt })
  | 7 =>
    let pkt := Function.update port.pkt (-1) cmd.cmd
    let csum : Int := cmd.cmd.toNat + byteSum (payloadOf pkt len)
    let pkt := Function.update pkt len (UInt8.ofInt (-csum))
    (writeBlock pkt (-1) (len + 2), { port with pkt := pkt })
  | _ => ([], port)

/--
The loop that sends zeros until something can be read: how many, and the calls made.

It asks twice in each turn, and need not end.
-/
def nulLoop (ready : Nat → Bool) : Nat → Nat → Option (Nat × Nat)
  | 0, _ => none
  | fuel + 1, polls =>
    if ready polls then some (0, polls + 1)
    else if ready (polls + 1) then some (1, polls + 2)
    else (nulLoop ready fuel (polls + 2)).map fun (x, polls) => (x + 1, polls)

/--
A request has no packet, or its packet can be sent.

There is a buffer that the packet and its checksum fit into, and the sum of the request is an `int`.
-/
def Room (cmd : RXcmd) (port : Port) : Prop :=
  cmd.pktCmd = 0 ∨
    (0 < port.pktBufSize ∧ -5 ≤ port.pktLength ∧ port.pktLength ≤ port.pktBufSize) ∧
      cmd.cmd.toNat + port.pktLength + byteSum (payloadOf port.pkt port.pktLength) < 2 ^ 31

instance (cmd : RXcmd) (port : Port) : Decidable (Room cmd port) :=
  inferInstanceAs (Decidable (_ ∨ _))

/-- A request with the zeros behind it, if it has any, and nothing when it leaves its buffer. -/
def sendCommand (fuel : Nat) (cmd : RXcmd) (ready : Nat → Bool) (port : Port) :
    Option (List UInt8 × Port) :=
  if Room cmd port then
    let (sent, port) := sendBlock cmd port
    if cmd.pktCmd = 7 then
      (nulLoop ready fuel port.polls).map fun (x, polls) =>
        (sent ++ List.replicate x 0, { port with polls := polls })
    else some (sent, port)
  else none

/-- A call of `rx_command`: its result, what each attempt sent, where the last answer begins. -/
structure RxRun where
  result : Int
  sent : List (List UInt8)
  answer : Nat
  deriving DecidableEq, Repr

/-- A call with one more attempt before it. -/
def RxRun.prepend (sent : List UInt8) (run : RxRun) : RxRun := { run with sent := sent :: run.sent }

/-- One attempt, and `try_again` for as long as there are tries left. -/
def rxAttempt (fuel : Nat) (cmd : RXcmd) (serial : Serial)
    (tryAgain : Option (Port → Option RxRun)) (port : Port) : Option RxRun :=
  match sendCommand fuel cmd serial.ready port with
  | none => none
  | some (sent, port) =>
    let answer := port.place
    match
      if cmd.pktResponse ≠ 0 then rxReadPacket cmd serial.line port
      else some (rxErrNone, port) with
    | none => none
    | some (i, port) =>
      match if i ≠ rxErrNone then tryAgain else none with
      | some next => (next port).map (RxRun.prepend sent)
      | none =>
        if (cmd.response.toNat : Int) = rxErrAck then
          let (i, port) := serialRead serial.line port
          if i = rxErrAck then some ⟨rxErrNone, [sent], answer⟩
          else if i = rxErrIdRequired then some ⟨rxErrNone, [sent], answer⟩
          else
            let (i, port) := serialRead serial.line port
            match if i = rxErrTimeout ∨ i = rxErrUndefinedCmd then tryAgain else none with
            | some next => (next port).map (RxRun.prepend sent)
            | none => some ⟨i, [sent], answer⟩
        else some ⟨rxErrNone, [sent], answer⟩

/-- The attempts from `try_again` on. -/
def rxAttempts (fuel : Nat) (cmd : RXcmd) (serial : Serial) : Nat → Port → Option RxRun
  | 0 => rxAttempt fuel cmd serial none
  | tries + 1 => rxAttempt fuel cmd serial (some (rxAttempts fuel cmd serial tries))

/-- `serial_drain`: where the next read is, when a read has run into the timeout. -/
def serialDrain (line : Nat → Option UInt8) : Nat → Nat → Option Nat
  | 0, _ => none
  | fuel + 1, place =>
    if (line place).isNone then some (place + 1) else serialDrain line fuel (place + 1)

/--
`rx_command`, where each of its loops that may go on for ever has so many turns.

It has no run when these are too few, or when it leaves its defined behaviour.
-/
def rxCommand (fuel : Nat) (command : UInt8) (serial : Serial) (port : Port) : Option RxRun :=
  match lookupCmd command with
  | none => none
  | some cmd =>
    match serialDrain serial.line fuel port.place with
    | none => none
    | some place =>
      rxAttempts fuel cmd serial 5
        { port with place := place, timeout := 50 + 1000 * cmd.longTimeout }

/-- Bytes that come in one after the other. -/
def Delivered (line : Nat → Option UInt8) (place : Nat) (bytes : List UInt8) : Prop :=
  window place bytes.length line = bytes.map some

/--
A response as it should be: the code, a payload of the length that is declared, and a checksum that
makes the sum zero, as far as an `int` can hold the size of the buffer and the sum.
-/
def Answered (cmd : RXcmd) (line : Nat → Option UInt8) (place : Nat) : Prop :=
  ∃ (given payload : List UInt8) (checksum : UInt8), given.length = cmd.pktResponse ∧
    payload.length = bigEndian given ∧ payload.length + 6 < 2 ^ 31 ∧
    Delivered line place (cmd.response :: (given ++ (payload ++ [checksum]))) ∧
    byteSum (cmd.response :: (given ++ (payload ++ [checksum]))) % 256 = 0 ∧
    byteSum (cmd.response :: (given ++ (payload ++ [checksum]))) < 2 ^ 31

/-- What is expected of a call. -/
structure Reliable (cmd : RXcmd) (line : Nat → Option UInt8) (run : RxRun) : Prop where
  same : ∀ sent ∈ run.sent, run.sent.head? = some sent
  answered : run.result = rxErrNone → cmd.pktResponse ≠ 0 → Answered cmd line run.answer
  acknowledged : run.result = rxErrNone → cmd.response = 0x06 → line run.answer = some 0x06

/-- What the packet loop takes for bytes: a timeout counts as 0xff. -/
def heard (line : Nat → Option UInt8) (place count : Nat) : List UInt8 :=
  (window place count line).map (·.getD 0xff)

/-- The buffer with bytes put there. -/
def storeBytes : Nat → List UInt8 → (Int → UInt8) → Int → UInt8
  | _, [], pkt => pkt
  | i, v :: rest, pkt => storeBytes (i + 1) rest (Function.update pkt i v)

/-- What bytes make of a length that was read so far, which is an `int`. -/
def lengthFrom (start : Int) (given : List UInt8) : Int :=
  given.foldl (fun len b => (len * 256 + (b.toNat : Int)).bmod (2 ^ 32)) start

/-- The length that bytes declare. -/
def declared (given : List UInt8) : Int := lengthFrom 0 given

/-- There is a buffer for a packet of this length, or one can be asked for. -/
def Fits (port : Port) (len : Int) : Prop := len ≤ port.pktBufSize ∨ len + 6 < 2 ^ 31

/-- The sum of a packet with its whole length, where a timeout counts as 0xff. -/
def packetSum (cmd : RXcmd) (line : Nat → Option UInt8) (place : Nat) (given : List UInt8) : Nat :=
  byteSum (cmd.response :: given) +
    byteSum (heard line (place + 1 + given.length) ((declared given).toNat + 1))

/-- What a packet with its whole length leaves behind. -/
def afterPacket (line : Nat → Option UInt8) (given : List UInt8) (port : Port) : Port :=
  { port with
    place := port.place + 1 + given.length + (declared given).toNat + 1
    pktLength := declared given
    pktBufSize := max port.pktBufSize (declared given)
    pkt := storeBytes 0 (heard line (port.place + 1 + given.length) (declared given).toNat)
      port.pkt }

/-- A first byte that is neither an acknowledgement nor the request for an ID. -/
def NotAccepted (line : Nat → Option UInt8) (place : Nat) : Prop :=
  line place ≠ some 0x06 ∧ line place ≠ some 0x16

/-- The error codes after which a command is sent again: none at all, or an undefined command. -/
def Again (code : Option UInt8) : Prop := code = none ∨ code = some 0x80

instance (code : Option UInt8) : Decidable (Again code) :=
  inferInstanceAs (Decidable (code = none ∨ code = some 0x80))

/-- The faults that are noticed, so that the request is sent again, and what they leave behind. -/
inductive Fault (cmd : RXcmd) (line : Nat → Option UInt8) (port : Port) : Port → Prop
  /-- No code comes in. -/
  | silent (packet : cmd.pktResponse ≠ 0) (code : line port.place = none) :
      Fault cmd line port { port with place := port.place + 1 }
  /-- Another code comes in, and behind it no zero. -/
  | refused {code : UInt8} (packet : cmd.pktResponse ≠ 0) (first : line port.place = some code)
      (other : code ≠ cmd.response) (error : line (port.place + 1) ≠ some 0) :
      Fault cmd line port { port with place := port.place + 2 }
  /-- The length is cut short. -/
  | cut {given : List UInt8} (packet : cmd.pktResponse ≠ 0)
      (first : Delivered line port.place (cmd.response :: given))
      (short : given.length < cmd.pktResponse)
      (ends : line (port.place + 1 + given.length) = none) :
      Fault cmd line port
        { port with place := port.place + 1 + given.length + 1, pktLength := declared given }
  /-- The length is there, and the sum is wrong. -/
  | garbled {given : List UInt8} (packet : cmd.pktResponse ≠ 0)
      (first : Delivered line port.place (cmd.response :: given))
      (whole : given.length = cmd.pktResponse) (fits : Fits port (declared given))
      (small : packetSum cmd line port.place given < 2 ^ 31)
      (wrong : packetSum cmd line port.place given % 256 ≠ 0) :
      Fault cmd line port (afterPacket line given port)
  /-- No acknowledgement, and an error that is no answer. -/
  | unheard (plain : cmd.pktResponse = 0) (acks : cmd.response = 0x06)
      (first : NotAccepted line port.place) (error : Again (line (port.place + 1))) :
      Fault cmd line port { port with place := port.place + 2 }

/-- Last answers from which a call returns as it should. -/
def Settles (cmd : RXcmd) (line : Nat → Option UInt8) (tries place : Nat) : Prop :=
  if cmd.pktResponse ≠ 0 then Answered cmd line place
  else if cmd.response = 0x06 then
    line place = some 0x06 ∨ NotAccepted line place ∧ line (place + 1) ≠ some 0 ∧
      (Again (line (place + 1)) → tries = 0)
  else True

/-- How many zeros a request has behind it, and the calls of `serial_ready` for them. -/
def Waits (cmd : RXcmd) (ready : Nat → Bool) (polls nuls after : Nat) : Prop :=
  if cmd.pktCmd = 7 then
    ∃ k, (∀ j < k, ready (polls + j) = false) ∧ ready (polls + k) = true ∧
      nuls = (k + 1) / 2 ∧ after = polls + k + 1
  else nuls = 0 ∧ after = polls

/-- What makes the next request the same: it has no packet, or this packet is still there. -/
def Keeps (cmd : RXcmd) (before after : Port) : Prop :=
  cmd.pktCmd = 0 ∨ after.pktLength = before.pktLength ∧
    payloadOf after.pkt after.pktLength = payloadOf before.pkt before.pktLength

/--
The answers to a command that is served as it should be, with so many tries left.

The faults before the last answer are noticed and leave the packet of the request alone; the line
becomes ready after the same number of zeros each time.
-/
inductive Recovers (cmd : RXcmd) (serial : Serial) (nuls : Nat) : Nat → Port → Prop
  | last {tries after : Nat} {port : Port} (waits : Waits cmd serial.ready port.polls nuls after)
      (settles : Settles cmd serial.line tries port.place) : Recovers cmd serial nuls tries port
  | again {tries after : Nat} {port next : Port}
      (waits : Waits cmd serial.ready port.polls nuls after)
      (fault : Fault cmd serial.line { (sendBlock cmd port).2 with polls := after } next)
      (keeps : Keeps cmd port next) (rest : Recovers cmd serial nuls tries next) :
      Recovers cmd serial nuls (tries + 1) port

/--
Answers to a call: the line falls silent, and what comes in then serves the command.

A request with a packet needs a buffer as well, which is there once a size above 0 was asked for.
-/
def Served (cmd : RXcmd) (serial : Serial) (port : Port) : Prop :=
  Room cmd port ∧ ∃ k nuls,
    (∀ j < k, serial.line (port.place + j) ≠ none) ∧ serial.line (port.place + k) = none ∧
    Recovers cmd serial nuls 5
      { port with place := port.place + k + 1, timeout := 50 + 1000 * cmd.longTimeout }

end OpenwrtMisc.RenesasFlash
