import Sponge.TCPHelpers.TCPState

/-!
# The TCP connection

A connection joins a sender and a receiver.  It hands inbound segments to both,
completes the headers of the segments that the sender has queued, and decides
when the connection is over.

The sum of the time since the last segment is reduced modulo `2 ^ 64`, as in
the source.
-/

namespace Sponge

/-- A complete endpoint. -/
structure TCPConnection where
  cfg : TCPConfig
  receiver : TCPReceiver
  sender : TCPSender
  segmentsOut : List TCPSegment
  lingerAfterStreamsFinish : Bool
  timeSinceLastSegmentReceived : ℕ
  initiator : Bool

namespace TCPConnection

/-- A new connection, for whose sender the number `randomIsn` was drawn. -/
def new (cfg : TCPConfig) (randomIsn : UInt32) : TCPConnection where
  cfg := cfg
  receiver := TCPReceiver.new cfg.recvCapacity
  sender :=
    TCPSender.new cfg.sendCapacity cfg.rtTimeout cfg.fixedIsn randomIsn
  segmentsOut := []
  lingerAfterStreamsFinish := true
  timeSinceLastSegmentReceived := 0
  initiator := false

/-! ## Accessors -/

def remainingOutboundCapacity (c : TCPConnection) : ℕ :=
  c.sender.streamIn.remainingCapacity

def bytesInFlight (c : TCPConnection) : ℕ := c.sender.bytesInFlight

def inboundStream (c : TCPConnection) : ByteStream := c.receiver.streamOut

/-- Is the connection still alive in any way? -/
def active (c : TCPConnection) : Bool :=
  if c.sender.streamIn.error && c.receiver.streamOut.error then false
  else if !c.lingerAfterStreamsFinish then
    !(c.receiver.streamOut.eof && c.sender.streamIn.eof &&
      c.bytesInFlight == 0)
  else
    !(c.receiver.streamOut.eof && c.sender.streamIn.eof &&
      c.bytesInFlight == 0 &&
      decide (c.timeSinceLastSegmentReceived ≥ 10 * c.cfg.rtTimeout.toNat))

/-- The summary of the sender, the receiver and the connection. -/
def state (c : TCPConnection) : TCPState :=
  TCPState.summarize c.sender c.receiver c.active c.lingerAfterStreamsFinish

/-! ## Outbound segments -/

/-- The window of the receiver, as far as the header has room for it. -/
def advertisedWindow (c : TCPConnection) : UInt16 :=
  if c.receiver.windowSize > 65535 then 65535
  else UInt16.ofNat c.receiver.windowSize

/-- The acknowledgment number in the header, if there is one. -/
def noteAckno (c : TCPConnection) (seg : TCPSegment) : TCPSegment :=
  match c.receiver.ackno with
  | some ackno => { seg with header := { seg.header with ackno := ackno } }
  | none => seg

/-- What `flush_buffer` puts into a header once there is an acknowledgment
number. -/
def acknowledge (c : TCPConnection) (seg : TCPSegment) : TCPSegment :=
  match c.receiver.ackno with
  | some ackno =>
      { seg with
        header :=
          { seg.header with
            ackno := ackno
            win := c.advertisedWindow
            ack := true } }
  | none => seg

/-- Move all segments of the sender to the outbound queue. -/
def flushBuffer (c : TCPConnection) : TCPConnection :=
  { c with
    sender := { c.sender with segmentsOut := [] }
    segmentsOut :=
      c.segmentsOut ++ c.sender.segmentsOut.map fun seg => c.acknowledge seg }

/-- Move the first segment of the sender, if there is one, to the outbound
queue. -/
def moveFront (c : TCPConnection) (edit : TCPSegment → TCPSegment) :
    TCPConnection :=
  match c.sender.segmentsOut with
  | seg :: rest =>
      { c with
        sender := { c.sender with segmentsOut := rest }
        segmentsOut := c.segmentsOut ++ [edit seg] }
  | [] => c

/-- Both streams suffer an error. -/
def setErrors (c : TCPConnection) : TCPConnection :=
  { c with
    sender := { c.sender with streamIn := c.sender.streamIn.setError }
    receiver := c.receiver.setError
    lingerAfterStreamsFinish := false }

/-- Give the connection up and tell the peer. -/
def uncleanShutdown (c : TCPConnection) : TCPConnection :=
  let c := c.setErrors
  let c :=
    if c.sender.segmentsOut.isEmpty then
      { c with sender := c.sender.sendEmptySegment }
    else c
  c.moveFront fun seg =>
    { c.noteAckno seg with
      header := { (c.noteAckno seg).header with rst := true } }

/-! ## Inbound segments -/

/-- The sender learns of the acknowledgment that a segment carries. -/
def ackSender (c : TCPConnection) (seg : TCPSegment) : TCPConnection :=
  if seg.header.ack then
    { c with
      sender := c.sender.ackReceived seg.header.ackno seg.header.win }
  else c

/-- The peer opens the connection: a SYN without an acknowledgment reaches an
endpoint that has not called `connect`. -/
def opens (c : TCPConnection) (seg : TCPSegment) : Bool :=
  seg.header.syn && !seg.header.ack && !c.initiator

/-- Answer a segment that occupies a sequence number. -/
def reply (c : TCPConnection) (seg : TCPSegment) : TCPConnection :=
  let c :=
    if c.opens seg then { c with sender := c.sender.fillWindow }
    else { c with sender := c.sender.sendEmptySegment }
  c.moveFront fun ackSeg =>
    { c.noteAckno ackSeg with
      header :=
        { (c.noteAckno ackSeg).header with
          ack := true
          win := c.advertisedWindow } }

/-- The peer has ended its stream first, so there is no need to linger. -/
def notePassiveClose (c : TCPConnection) : TCPConnection :=
  if c.receiver.streamOut.inputEnded && !c.sender.streamIn.eof then
    { c with lingerAfterStreamsFinish := false }
  else c

/-- Handle an inbound segment without the RST flag. -/
def handle (c : TCPConnection) (seg : TCPSegment) : TCPConnection :=
  let c := { c with receiver := c.receiver.segmentReceived seg }
  let c := c.ackSender seg
  let c :=
    if seg.lengthInSequenceSpace > 0 then c.reply seg else c.flushBuffer
  c.notePassiveClose

/-- Handle an inbound segment. -/
def segmentReceived (c : TCPConnection) (seg : TCPSegment) :
    TCPConnection :=
  if !c.active then c
  else
    let c := { c with timeSinceLastSegmentReceived := 0 }
    if seg.header.rst then c.setErrors else c.handle seg

/-! ## The application and the clock -/

/-- Write to the outbound stream, and return how many bytes were written. -/
def write (c : TCPConnection) (data : Bytes) : ℕ × TCPConnection :=
  if !c.active then (0, c)
  else
    let written := c.sender.streamIn.write data
    let sender := { c.sender with streamIn := written.2 }
    (written.1, flushBuffer { c with sender := sender.fillWindow })

/-- Let time pass. -/
def tick (c : TCPConnection) (msSinceLastTick : ℕ) : TCPConnection :=
  if !c.active then c
  else
    let c :=
      { c with
        timeSinceLastSegmentReceived :=
          add64 c.timeSinceLastSegmentReceived msSinceLastTick
        sender := c.sender.tick msSinceLastTick }
    let c :=
      if c.sender.consecutiveRetransmissions > TCPConfig.maxRetxAttempts then
        c.uncleanShutdown
      else c
    c.flushBuffer

/-- Shut down the outbound stream. -/
def endInputStream (c : TCPConnection) : TCPConnection :=
  if !c.active then c
  else
    let sender :=
      { c.sender with streamIn := c.sender.streamIn.endInput }
    flushBuffer { c with sender := sender.fillWindow }

/-- Open the connection by sending a SYN. -/
def connect (c : TCPConnection) : TCPConnection :=
  let c := { c with sender := c.sender.fillWindow }
  if c.sender.segmentsOut.isEmpty then c
  else { c.moveFront id with initiator := true }

/-- Take bytes from the inbound stream. -/
def readInbound (c : TCPConnection) (len : ℕ) : TCPConnection :=
  { c with receiver := c.receiver.popOutput len }

/-! ## The operations of a run -/

/-- What the application, the network and the clock can do. -/
inductive Op where
  | connect
  | write (data : Bytes)
  | endInputStream
  | tick (ms : ℕ)
  | segmentReceived (seg : TCPSegment)
  | readInbound (len : ℕ)
deriving DecidableEq

def step (c : TCPConnection) : Op → TCPConnection
  | .connect => c.connect
  | .write data => (c.write data).2
  | .endInputStream => c.endInputStream
  | .tick ms => c.tick ms
  | .segmentReceived seg => c.segmentReceived seg
  | .readInbound len => c.readInbound len

end TCPConnection

end Sponge
