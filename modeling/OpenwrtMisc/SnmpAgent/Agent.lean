import OpenwrtMisc.SnmpAgent.Transmit

/-! The served objects, and what the agent does with a datagram. -/

namespace OpenwrtMisc.SnmpAgent

/-- The values behind the served objects while a request is processed. -/
structure CurrentValues where
  /-- The time at which the agent was started, in seconds. -/
  startupTime : Int
  /-- The time that is read for each binding, in seconds. -/
  time : Nat → Int
  /-- The counter of tariff 0. -/
  counterTarif0 : BitVec 32
  /-- The counter of tariff 1. -/
  counterTarif1 : BitVec 32
  /-- The counter of tariff 2. -/
  counterTarif2 : BitVec 32
  /-- The power that is drawn. -/
  pmeter : BitVec 32

/-- The description of the system. -/
def description : List UInt8 := ascii "volkszaehler.org / DAI Labor Berlin / Frauenhofer FOKUS"

/-- The name of the master agent. -/
def masterName : List UInt8 := ascii "libSML Masteragent"

/-- The location of the master agent. -/
def masterLocation : List UInt8 := ascii "Stromkasten"

/-- The number of agents. -/
def numberOfAgents : BitVec 32 := 1

/-- The time since the start in hundredths of a second, as a binding at an index reads it. -/
def CurrentValues.timeticks (current : CurrentValues) (i : Nat) : BitVec 32 :=
  BitVec.ofInt 32 ((current.time i - current.startupTime) * 100)

/-- A served object: its OID, and the type and the value that it is answered with. -/
structure Served where
  /-- The text of the OID. -/
  oid : List UInt8
  /-- The type tag of the value. -/
  dataType : UInt8
  /-- The value. -/
  value : Value
  deriving DecidableEq, Repr

/-- The served objects in the order in which a binding is compared with them. -/
def servedTable (current : CurrentValues) (i : Nat) : List Served :=
  [⟨ascii "1.3.6.1.2.1.1.1.0", 0x04, .string description⟩,
    ⟨ascii "1.3.6.1.2.1.1.3.0", 0x43, .word (current.timeticks i)⟩,
    ⟨ascii "1.3.6.1.4.1.39241.1.1.0", 0x04, .string masterName⟩,
    ⟨ascii "1.3.6.1.4.1.39241.1.2.0", 0x04, .string masterLocation⟩,
    ⟨ascii "1.3.6.1.4.1.39241.1.3.0", 0x02, .word numberOfAgents⟩,
    ⟨ascii "1.3.6.1.4.1.39241.1.8.0", 0x02, .word current.counterTarif0⟩,
    ⟨ascii "1.3.6.1.4.1.39241.1.8.1", 0x02, .word current.counterTarif1⟩,
    ⟨ascii "1.3.6.1.4.1.39241.1.8.2", 0x02, .word current.counterTarif2⟩,
    ⟨ascii "1.3.6.1.4.1.39241.16.7.0", 0x02, .word current.pmeter⟩]

/-- One comparison of a binding with a served object. -/
def serve (varbind : Varbind) (served : Served) : Except Fault Varbind :=
  if served.oid = varbind.oid then updateVarbind varbind served.dataType served.value
  else .ok varbind

/-- The comparisons of a binding with the served objects, one after the other. -/
def serveAll : Varbind → List Served → Except Fault Varbind
  | varbind, [] => .ok varbind
  | varbind, served :: table => do
    let varbind ← serve varbind served
    serveAll varbind table

/-- The bindings from an index on, with the values of the served objects. -/
def processVarbindList (current : CurrentValues) : Nat → List Varbind → Except Fault (List Varbind)
  | _, [] => .ok []
  | i, varbind :: varbinds => do
    let processed ← serveAll varbind (servedTable current i)
    let rest ← processVarbindList current (i + 1) varbinds
    return processed :: rest

/-- The reply to a request that was taken apart. -/
def answer (current : CurrentValues) (request : RequestRx) : Except Fault (List UInt8) := do
  let varbinds ← processVarbindList current 0 request.varbindList.varbindList
  let varbindList ← createVarbindListTx varbinds
  let snmpPdu ← createSnmpPduTx 0xa2 request.pdu.requestId 0x00 0x00 varbindList
  createSnmpMessageTx request.message.community snmpPdu

/-- The first entry of a list; an empty list has no table at all. -/
def firstEntry : List Varbind → Except Fault Varbind
  | [] => .error .nullPointer
  | varbind :: _ => .ok varbind

/-- One turn of the agent: the reply to what was received, or none when it is rejected. -/
def snmpAgent (current : CurrentValues) (recvData : List UInt8) :
    Except Fault (Option (List UInt8)) := do
  match ← receiveRequest recvData with
  | none => return none
  | some request =>
    -- A binding is made for a test and thrown away; its OID is that of the first entry.
    let first ← firstEntry request.varbindList.varbindList
    let _ ← createVarbind first.oid primvInt (.word 5)
    let reply ← answer current request
    return some reply

/-- The receive buffer: the datagram, a zero behind it, and what an earlier one left there. -/
def recvData (datagram stale : List UInt8) : List UInt8 := datagram ++ 0 :: stale

end OpenwrtMisc.SnmpAgent
