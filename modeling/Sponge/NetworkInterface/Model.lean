import Sponge.Support.OrderedMap
import Sponge.Support.Run
import Sponge.TCPHelpers.ARPMessage
import Sponge.TCPHelpers.TCPOverIP

/-!
# The network interface

The interface puts IPv4 datagrams into Ethernet frames.  It learns the
Ethernet addresses of its neighbours from ARP messages, asks for those that it
does not know, and keeps the datagrams that wait for an answer in one queue
for each next hop.

A call may end with an exception, when a datagram cannot be serialized.  The
state is then the one in which the exception left the interface.

Frames are never taken out of `framesOut` here, so it holds everything that
was ever emitted.  The `history` is not in the source.  It records, in the
order in which they happen, the frames with what they were emitted for, the
accepted ARP messages and the learned addresses.
-/

namespace Sponge

/-- An IPv4 frame, with the datagram and the next hop it was emitted for. -/
structure Emission where
  time : ℕ
  hop : UInt32
  dgram : InternetDatagram
  frame : EthernetFrame
deriving DecidableEq

/-- An ARP message that was accepted, with the source of its frame. -/
structure Acceptance where
  time : ℕ
  frameSrc : EthernetAddress
  arp : ARPMessage
deriving DecidableEq

/-- What happens at an interface. -/
inductive Event where
  | accepted (m : Acceptance)
  | learned (time : ℕ) (ip : UInt32) (eth : EthernetAddress)
  | request (time : ℕ) (target : UInt32) (frame : EthernetFrame)
  | reply (frame : EthernetFrame)
  | datagram (e : Emission)
deriving DecidableEq

/-- The frame that an event emits. -/
def Event.frame? : Event → Option EthernetFrame
  | .accepted _ => none
  | .learned _ _ _ => none
  | .request _ _ frame => some frame
  | .reply frame => some frame
  | .datagram e => some e.frame

/-- The state of an interface. -/
structure NetworkInterface where
  ethernetAddress : EthernetAddress
  ipAddress : Address
  framesOut : List EthernetFrame := []
  ipToEthTable : OrderedMap UInt32 EthernetAddress := OrderedMap.empty
  ipTimeoutTable : OrderedMap UInt32 ℕ := OrderedMap.empty
  dgMap : OrderedMap UInt32 (List InternetDatagram) := OrderedMap.empty
  systemTime : ℕ := 0
  history : List Event := []

namespace NetworkInterface

/-- How long a request is not repeated, in milliseconds. -/
def fiveThousandsMs : ℕ := 5000

/-- How long an address is kept, in milliseconds. -/
def thirtyThousandsMs : ℕ := 30000

def new (ethernetAddress : EthernetAddress) (ipAddress : Address) :
    NetworkInterface where
  ethernetAddress := ethernetAddress
  ipAddress := ipAddress

/-- Note an event, and push its frame. -/
def record (n : NetworkInterface) (e : Event) : NetworkInterface :=
  { n with
    framesOut := n.framesOut ++ e.frame?.toList
    history := n.history ++ [e] }

/-! ## The queues -/

/-- The datagrams that wait for the address of a next hop. -/
def queue (n : NetworkInterface) (ip : UInt32) : List InternetDatagram :=
  (n.dgMap.find? ip).getD []

/-- Create a queue if there is none. -/
def createQueue (n : NetworkInterface) (ip : UInt32) : NetworkInterface :=
  { n with dgMap := n.dgMap.insert ip [] }

def setQueue (n : NetworkInterface) (ip : UInt32)
    (q : List InternetDatagram) : NetworkInterface :=
  { n with dgMap := n.dgMap.set ip q }

/-- Push a datagram onto the queue of a next hop. -/
def push (n : NetworkInterface) (ip : UInt32) (dgram : InternetDatagram) :
    NetworkInterface :=
  n.setQueue ip (n.queue ip ++ [dgram])

/-- An IPv4 frame of this interface. -/
def ipv4Frame (n : NetworkInterface) (dst : EthernetAddress)
    (payload : BufferList) : EthernetFrame where
  header := { type := EthernetHeader.typeIPv4, src := n.ethernetAddress,
              dst := dst }
  payload := payload

/-- The loop of `flush_buffer`, on the datagrams that are left in the queue. -/
def flushLoop (ipAddr : UInt32) (ethAddr : EthernetAddress) :
    List InternetDatagram → NetworkInterface →
      Except String Unit × NetworkInterface
  | [], n => (.ok (), n)
  | dg :: rest, n =>
      match dg.serialize with
      | .error e => (.error e, n)
      | .ok payload =>
          let ethFr := n.ipv4Frame ethAddr payload
          flushLoop ipAddr ethAddr rest
            ((n.setQueue ipAddr rest).record
              (.datagram ⟨n.systemTime, ipAddr, dg, ethFr⟩))

/-- Emit the datagrams that wait for a next hop. -/
def flushBuffer (n : NetworkInterface) (ipAddr : UInt32)
    (ethAddr : EthernetAddress) : Except String Unit × NetworkInterface :=
  flushLoop ipAddr ethAddr (n.queue ipAddr) (n.createQueue ipAddr)

/-! ## Sending -/

/-- An ARP frame of this interface. -/
def arpFrame (n : NetworkInterface) (dst : EthernetAddress)
    (payload : Bytes) : EthernetFrame where
  header := { type := EthernetHeader.typeArp, src := n.ethernetAddress,
              dst := dst }
  payload := BufferList.ofBuffer (Buffer.ofString payload)

def arpRequest (n : NetworkInterface) (nextHopIp : UInt32) : ARPMessage where
  opcode := ARPMessage.opcodeRequest
  senderEthernetAddress := n.ethernetAddress
  senderIpAddress := n.ipAddress.ipv4Numeric
  targetIpAddress := nextHopIp

/-- Is it time for a request?  There is no stored time, or it is old. -/
def Asks (n : NetworkInterface) (ip : UInt32) : Prop :=
  ∀ time ∈ n.ipTimeoutTable.find? ip,
    sub64 n.systemTime time > fiveThousandsMs

instance (n : NetworkInterface) (ip : UInt32) : Decidable (n.Asks ip) :=
  inferInstanceAs (Decidable (∀ time ∈ n.ipTimeoutTable.find? ip, _))

/-- Store the time of a request, if no time is stored. -/
def noteRequest (n : NetworkInterface) (ip : UInt32) : NetworkInterface :=
  if n.ipTimeoutTable.find? ip = none then
    { n with ipTimeoutTable := n.ipTimeoutTable.insert ip n.systemTime }
  else n

/-- The branch of `send_datagram` for an address that is not known. -/
def requestAddress (n : NetworkInterface) (nextHopIp : UInt32) :
    Except String Unit × NetworkInterface :=
  if n.Asks nextHopIp then
    match (n.arpRequest nextHopIp).serialize with
    | .error e => (.error e, n)
    | .ok payload =>
        let ethFr := n.arpFrame EthernetAddress.broadcast payload
        (.ok (), (n.record (.request n.systemTime nextHopIp ethFr)).noteRequest
          nextHopIp)
  else (.ok (), n)

def sendDatagram (n : NetworkInterface) (dgram : InternetDatagram)
    (nextHop : Address) : Except String Unit × NetworkInterface :=
  let nextHopIp := nextHop.ipv4Numeric
  let n := n.createQueue nextHopIp
  let ipIt := n.ipToEthTable.find? nextHopIp
  let n := n.push nextHopIp dgram
  match ipIt with
  | some ethAddr => n.flushBuffer nextHopIp ethAddr
  | none => n.requestAddress nextHopIp

/-! ## Receiving -/

/-- Learn an address, unless there is one already. -/
def learn (n : NetworkInterface) (ip : UInt32) (eth : EthernetAddress) :
    NetworkInterface :=
  if n.ipToEthTable.find? ip = none then
    { n.record (.learned n.systemTime ip eth) with
      ipToEthTable := n.ipToEthTable.insert ip eth
      ipTimeoutTable := n.ipTimeoutTable.insert ip n.systemTime }
  else n

def arpReply (n : NetworkInterface) (frameSrc : EthernetAddress)
    (arpReq : ARPMessage) : ARPMessage where
  opcode := ARPMessage.opcodeReply
  senderEthernetAddress := n.ethernetAddress
  targetEthernetAddress := frameSrc
  senderIpAddress := n.ipAddress.ipv4Numeric
  targetIpAddress := arpReq.senderIpAddress

/-- The branch of `recv_frame` for an ARP message that was parsed. -/
def recvArp (n : NetworkInterface) (frameSrc : EthernetAddress)
    (arpReq : ARPMessage) : Except String Unit × NetworkInterface :=
  let n := n.record (.accepted ⟨n.systemTime, frameSrc, arpReq⟩)
  let n := n.learn arpReq.senderIpAddress frameSrc
  if arpReq.targetIpAddress = n.ipAddress.ipv4Numeric ∧
      arpReq.opcode = ARPMessage.opcodeRequest then
    match (n.arpReply frameSrc arpReq).serialize with
    | .error e => (.error e, n)
    | .ok payload => (.ok (), n.record (.reply (n.arpFrame frameSrc payload)))
  else if arpReq.targetIpAddress = n.ipAddress.ipv4Numeric ∧
      arpReq.opcode = ARPMessage.opcodeReply then
    n.flushBuffer arpReq.senderIpAddress arpReq.senderEthernetAddress
  else (.ok (), n)

/-- Is the frame for this interface? -/
def Accepts (n : NetworkInterface) (frame : EthernetFrame) : Prop :=
  frame.header.dst = EthernetAddress.broadcast ∨
    frame.header.dst = n.ethernetAddress

instance (n : NetworkInterface) (frame : EthernetFrame) :
    Decidable (n.Accepts frame) :=
  inferInstanceAs (Decidable (_ ∨ _))

/-- The datagram or nothing, and the state. -/
def recvFrame (n : NetworkInterface) (frame : EthernetFrame) :
    Except String (Option InternetDatagram) × NetworkInterface :=
  let payload := Buffer.ofString frame.payload.concatenate
  if ¬ n.Accepts frame then (.ok none, n)
  else if frame.header.type = EthernetHeader.typeIPv4 then
    let (result, dgram) := IPv4Datagram.parse {} payload
    if result = .noError then (.ok (some dgram), n) else (.ok none, n)
  else if frame.header.type = EthernetHeader.typeArp then
    let (result, arpReq) := ARPMessage.parse {} payload
    if result = .noError then
      let (outcome, n) := n.recvArp frame.header.src arpReq
      (outcome.map fun _ => none, n)
    else (.ok none, n)
  else (.ok none, n)

/-! ## Time -/

/-- The entries of the timeout table that are too old. -/
def expired (n : NetworkInterface) : List UInt32 :=
  (n.ipTimeoutTable.entries.filter fun e =>
    sub64 n.systemTime e.2 > thirtyThousandsMs).map Prod.fst

/-- Advance the clock, and forget the addresses that are too old. -/
def tick (n : NetworkInterface) (msSinceLastTick : ℕ) : NetworkInterface :=
  let n := { n with systemTime := add64 n.systemTime msSinceLastTick }
  { n with
    ipToEthTable := n.expired.foldl OrderedMap.erase n.ipToEthTable
    ipTimeoutTable := n.expired.foldl OrderedMap.erase n.ipTimeoutTable }

/-! ## Runs -/

/-- The calls of the owner of an interface. -/
inductive Op where
  | sendDatagram (dgram : InternetDatagram) (nextHop : Address)
  | recvFrame (frame : EthernetFrame)
  | tick (msSinceLastTick : ℕ)

/-- The clock does not overflow. -/
def ClockFits (n : NetworkInterface) : Op → Prop
  | .tick msSinceLastTick => n.systemTime + msSinceLastTick < 2 ^ 64
  | _ => True

instance (n : NetworkInterface) : ∀ op, Decidable (n.ClockFits op)
  | .tick _ => inferInstanceAs (Decidable (_ < _))
  | .sendDatagram _ _ => isTrue trivial
  | .recvFrame _ => isTrue trivial

/-- The state after a call, also if it throws. -/
def step (n : NetworkInterface) : Op → NetworkInterface
  | .sendDatagram dgram nextHop => (n.sendDatagram dgram nextHop).2
  | .recvFrame frame => (n.recvFrame frame).2
  | .tick msSinceLastTick => n.tick msSinceLastTick

/-! ## Two hosts -/

def ownEth : EthernetAddress := ⟨[2, 0, 0, 0, 0, 1], rfl⟩

def ownIp : Address := ⟨1, 0⟩

def neighbourEth : EthernetAddress := ⟨[2, 0, 0, 0, 0, 2], rfl⟩

def neighbourIp : Address := ⟨2, 0⟩

/-- A datagram without payload. -/
def bareDatagram : InternetDatagram := { header := { len := 20 } }

/-- An ARP message from the neighbour to us. -/
def neighbourArp (opcode : UInt16) (eth : EthernetAddress) : ARPMessage where
  opcode := opcode
  senderEthernetAddress := eth
  senderIpAddress := neighbourIp.ipv4Numeric
  targetIpAddress := ownIp.ipv4Numeric

/-- The frame with the message. -/
def arpFromNeighbour (opcode : UInt16) (eth : EthernetAddress) :
    EthernetFrame where
  header := { type := EthernetHeader.typeArp, src := eth, dst := ownEth }
  payload := BufferList.ofBuffer
    (Buffer.ofString (neighbourArp opcode eth).encode)

end NetworkInterface

end Sponge
