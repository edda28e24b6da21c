import Sponge.TCPConnection.Model
import Sponge.TCPHelpers.FdAdapter
import Sponge.Util.EventLoop

/-!
# The socket

A socket runs a TCP connection in a thread of its own.  Its owner writes to one
end of a pair of local sockets and reads from it; the thread has the other end,
and an adapter for the segments.  Four rules of an event loop join them: a
segment that arrives is given to the connection, what the owner has written is
given to the outbound stream, what has been reassembled is written to the
owner, and the segments on the queue of the connection are handed to the
adapter.  Between two calls of the event loop the clock ticks.

The queue of the connection keeps all segments that were ever put on it; the
field `popped` counts those that the socket has taken.
-/

namespace Sponge

/-- The variables that the rules share. -/
structure TCPSpongeSocket (δ : Type*) where
  threadData : FileDescriptor
  datagramAdapter : δ
  tcp : TCPConnection
  popped : ℕ
  outboundShutdown : Bool
  inboundShutdown : Bool

namespace TCPSpongeSocket

open EventLoop

variable {δ ε : Type*}

/-- What the kernel answers to the system calls of one callback: on the pair
of sockets, and to the operations of the adapter one after the other. -/
structure Answer (ε : Type*) where
  read : Except String Bytes
  write : Except String ℕ
  shutdown : Except String Unit
  adapter : ℕ → ε

/-! ## The rules -/

/-- The rules, in the order in which they are added. -/
inductive Name where
  | readDatagram
  | readPipe
  | writePipe
  | writeDatagrams
deriving DecidableEq

/-- The segments that wait on the queue of the connection. -/
def segmentsOut (s : TCPSpongeSocket δ) : List TCPSegment :=
  s.tcp.segmentsOut.drop s.popped

/-- Shut down the outbound stream. -/
def endOutbound (s : TCPSpongeSocket δ) : TCPSpongeSocket δ :=
  { s with tcp := s.tcp.endInputStream, outboundShutdown := true }

/-- Rule 1: read from the filtered packet stream into the connection. -/
def readDatagram (A : FdAdapter δ ε) (answer : Answer ε)
    (s : TCPSpongeSocket δ) : Except String Unit × TCPSpongeSocket δ :=
  match A.read (answer.adapter 0) s.datagramAdapter with
  | (.error e, d) => (.error e, { s with datagramAdapter := d })
  | (.ok none, d) => (.ok (), { s with datagramAdapter := d })
  | (.ok (some seg), d) =>
      (.ok (),
        { s with datagramAdapter := d, tcp := s.tcp.segmentReceived seg })

/-- Rule 2: read from the pipe into the outbound buffer. -/
def readPipe (answer : Answer ε) (s : TCPSpongeSocket δ) :
    Except String Unit × TCPSpongeSocket δ :=
  match s.threadData.read s.tcp.remainingOutboundCapacity answer.read with
  | (.error e, fd) => (.error e, { s with threadData := fd })
  | (.ok data, fd) =>
      let amountWritten := s.tcp.write data
      let s := { s with threadData := fd, tcp := amountWritten.2 }
      if amountWritten.1 ≠ data.length then
        (.error "TCPConnection::write() accepted less than advertised length",
          s)
      else (.ok (), if fd.eof then s.endOutbound else s)

/-- Rule 3: read from the inbound buffer into the pipe. -/
def writePipe (answer : Answer ε) (s : TCPSpongeSocket δ) :
    Except String Unit × TCPSpongeSocket δ :=
  let inbound := s.tcp.inboundStream
  let amountToWrite := min 65536 inbound.bufferSize
  let buffer := BufferViewList.ofString (inbound.peekOutput amountToWrite)
  match s.threadData.writeSome buffer answer.write with
  | (.error e, fd) => (.error e, { s with threadData := fd })
  | (.ok bytesWritten, fd) =>
      let s :=
        { s with threadData := fd, tcp := s.tcp.readInbound bytesWritten }
      if s.tcp.inboundStream.eof || s.tcp.inboundStream.error then
        match fd.shutdownWrite answer.shutdown with
        | (.error e, fd) => (.error e, { s with threadData := fd })
        | (.ok (), fd) =>
            (.ok (), { s with threadData := fd, inboundShutdown := true })
      else (.ok (), s)

/-- The loop of rule 4 on the segments that wait. -/
def writeSegments (A : FdAdapter δ ε) (answers : ℕ → ε) :
    List TCPSegment → ℕ → TCPSpongeSocket δ →
      Except String Unit × TCPSpongeSocket δ
  | [], _, s => (.ok (), s)
  | seg :: segs, i, s =>
      match A.write (answers i) seg s.datagramAdapter with
      | (.error e, d) => (.error e, { s with datagramAdapter := d })
      | (.ok (), d) =>
          writeSegments A answers segs (i + 1)
            { s with datagramAdapter := d, popped := s.popped + 1 }

/-- The four rules. -/
def rule (A : FdAdapter δ ε) : Name → Rule (TCPSpongeSocket δ) (Answer ε)
  | .readDatagram =>
      { fd := fun s => A.fd s.datagramAdapter
        direction := .pollIn
        callback := readDatagram A
        interest := fun s => s.tcp.active
        cancel := id }
  | .readPipe =>
      { fd := threadData
        direction := .pollIn
        callback := readPipe
        interest := fun s => s.tcp.active && !s.outboundShutdown &&
          decide (s.tcp.remainingOutboundCapacity > 0)
        cancel := endOutbound }
  | .writePipe =>
      { fd := threadData
        direction := .pollOut
        callback := writePipe
        interest := fun s => !s.tcp.inboundStream.bufferEmpty ||
          ((s.tcp.inboundStream.eof || s.tcp.inboundStream.error) &&
            !s.inboundShutdown)
        cancel := id }
  | .writeDatagrams =>
      { fd := fun s => A.fd s.datagramAdapter
        direction := .pollOut
        callback := fun answer s =>
          writeSegments A answer.adapter s.segmentsOut 0 s
        interest := fun s => !s.segmentsOut.isEmpty
        cancel := id }

def allRules : List Name :=
  [.readDatagram, .readPipe, .writePipe, .writeDatagrams]

/-! ## The thread -/

/-- How the connection was opened. -/
inductive Role where
  | connect
  | listenAndAccept
deriving DecidableEq

/-- The condition under which the first loop goes on. -/
def Role.opening (role : Role) (tcp : TCPConnection) : Bool :=
  match role with
  | .connect => tcp.state == TCPState.ofState .synSent
  | .listenAndAccept =>
      tcp.state == TCPState.ofState .listen ||
        tcp.state == TCPState.ofState .synRcvd ||
        tcp.state == TCPState.ofState .synSent

/-- Where the execution stands: in the loop of `connect` or
`listen_and_accept`, in the loop of the thread, or behind it. -/
inductive Phase where
  | opening
  | main
  | finished
  | threw (e : String)
deriving DecidableEq

/-- A socket with its event loop. -/
structure Thread (δ : Type*) where
  socket : TCPSpongeSocket δ
  rules : List Name
  role : Role
  phase : Phase
  baseTime : ℕ

/-- What happens in one round of a loop: what the kernel does during the call
of `wait_next_event`, whether the owner has given up, the time, and the answers
to the tick of the adapter and to the final shutdown of the owner's end. -/
structure Turn (ε : Type*) where
  poll : Poll
  answers : ℕ → Answer ε
  abort : Bool
  time : ℕ
  tick : ε
  shutdown : Except String Unit

namespace Thread

/-- One round of `_tcp_loop`.  Returns whether the loop goes on. -/
def round (A : FdAdapter δ ε) (t : Thread δ) (turn : Turn ε) :
    Except String Bool × Thread δ :=
  match waitNextEvent (rule A) t.rules t.socket turn.poll turn.answers with
  | (.error e, rules, s) => (.error e, { t with rules := rules, socket := s })
  | (.ok ret, rules, s) =>
      let t := { t with rules := rules, socket := s }
      if ret = .exit ∨ turn.abort then (.ok false, t)
      else if s.tcp.active then
        let elapsed := sub64 turn.time t.baseTime
        let s := { s with tcp := s.tcp.tick elapsed }
        match A.tick turn.tick elapsed s.datagramAdapter with
        | (.error e, d) =>
            (.error e, { t with socket := { s with datagramAdapter := d } })
        | (.ok (), d) =>
            (.ok true,
              { t with
                socket := { s with datagramAdapter := d }
                baseTime := turn.time })
      else (.ok true, t)

/-- The thread starts its own loop. -/
def enterMain (t : Thread δ) (time : ℕ) : Thread δ :=
  { t with phase := .main, baseTime := time }

/-- The next round, in the loop in which the execution stands. -/
def turn (A : FdAdapter δ ε) (t : Thread δ) (turn : Turn ε) : Thread δ :=
  match t.phase with
  | .opening =>
      if t.role.opening t.socket.tcp then
        match t.round A turn with
        | (.error e, t) => { t with phase := .threw e }
        | (.ok true, t) => t
        | (.ok false, t) => t.enterMain turn.time
      else t.enterMain turn.time
  | .main =>
      match t.round A turn with
      | (.error e, t) => { t with phase := .threw e }
      | (.ok true, t) => t
      | (.ok false, t) =>
          match systemCall "shutdown" turn.shutdown with
          | .error e => { t with phase := .threw e }
          | .ok () => { t with phase := .finished }
  | .finished => t
  | .threw _ => t

/-- A socket with a connection, before the first round. -/
def start (role : Role) (adapter : δ) (tcp : TCPConnection) (time : ℕ) :
    Thread δ where
  socket :=
    { threadData := {}
      datagramAdapter := adapter
      tcp := tcp
      popped := 0
      outboundShutdown := false
      inboundShutdown := false }
  rules := allRules
  role := role
  phase := .opening
  baseTime := time

/-- Connect, up to the loop that waits for the peer. -/
def connect (A : FdAdapter δ ε) (adapter : δ) (cTcp : TCPConfig)
    (randomIsn : UInt32) (cAd : FdAdapterConfig) (time : ℕ) :
    Except String (Thread δ) :=
  let tcp := (TCPConnection.new cTcp randomIsn).connect
  let expected := TCPState.ofState .synSent
  if tcp.state ≠ expected then
    .error ("After TCPConnection::connect(), state was " ++ tcp.state.name ++
      " but expected " ++ expected.name)
  else .ok (start .connect (A.configMut cAd adapter) tcp time)

/-- Listen, up to the loop that waits for a peer. -/
def listenAndAccept (A : FdAdapter δ ε) (adapter : δ) (cTcp : TCPConfig)
    (randomIsn : UInt32) (cAd : FdAdapterConfig) (time : ℕ) : Thread δ :=
  start .listenAndAccept (A.setListening true (A.configMut cAd adapter))
    (TCPConnection.new cTcp randomIsn) time

end Thread

end TCPSpongeSocket

end Sponge
