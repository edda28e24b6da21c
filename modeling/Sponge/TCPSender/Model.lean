import Sponge.ByteStream
import Sponge.Support.OrderedMap
import Sponge.TCPHelpers.TCPConfig
import Sponge.TCPHelpers.TCPSegment

/-!
# The TCP sender

The sender cuts its outgoing stream into segments as far as the peer's window
allows, keeps the segments that are not acknowledged in a map under the
absolute sequence number at which they end, and retransmits the first of them
when its timer expires.

Two fields are not in the source and no operation reads them.  `created` is
the list of all segments that `send_segment` has made, each with the absolute
sequence number at which it starts.  `windowUnderflow` is set when more is
subtracted from the 16-bit counter of the remaining window than it holds.  The
last field is a proof that the counter has 16 bits.

Sequence numbers and the number of bytes in flight count what has really been
sent and are natural numbers here; the sums with an acknowledgment number that
the peer chooses are reduced modulo `2 ^ 64`, as in the source.  The bytes in
flight are those of the outstanding segments (`InFlight`), so what is
subtracted from them is never more than they are.
-/

namespace Sponge

/-- The sender with its outgoing stream. -/
structure TCPSender where
  isn : WrappingInt32
  segmentsOut : List TCPSegment
  initialRetransmissionTimeout : ℕ
  streamIn : ByteStream
  nextSeqnoAbsolute : ℕ
  outstandingSegments : OrderedMap ℕ TCPSegment
  bytesInFlight : ℕ
  syn : Bool
  finSent : Bool
  wdnSz : ℕ
  absAckno : ℕ
  recvWdnSz : ℕ
  maxAbsSeqno : ℕ
  rto : ℕ
  consecutiveRetransmissions : ℕ
  elapsedTime : ℕ
  timerOn : Bool
  created : List (ℕ × TCPSegment)
  windowUnderflow : Bool
  recvWdnSz_lt : recvWdnSz < 2 ^ 16

namespace TCPSender

/-- A new sender.  The initial sequence number is the configured one or else
the random number that was drawn. -/
def new (capacity : ℕ) (retxTimeout : UInt16)
    (fixedIsn : Option WrappingInt32) (randomIsn : UInt32) : TCPSender where
  isn := fixedIsn.getD ⟨randomIsn⟩
  segmentsOut := []
  initialRetransmissionTimeout := retxTimeout.toNat
  streamIn := ByteStream.new capacity
  nextSeqnoAbsolute := 0
  outstandingSegments := OrderedMap.empty
  bytesInFlight := 0
  syn := false
  finSent := false
  wdnSz := 1
  absAckno := 0
  recvWdnSz := 0
  maxAbsSeqno := 0
  rto := 0
  consecutiveRetransmissions := 0
  elapsedTime := 0
  timerOn := false
  created := []
  windowUnderflow := false
  recvWdnSz_lt := Nat.two_pow_pos 16

/-- The relative sequence number of the next byte to be sent. -/
def nextSeqno (s : TCPSender) : WrappingInt32 :=
  wrap s.nextSeqnoAbsolute s.isn

/-- Start the retransmission timer unless it is running. -/
def startTimer (s : TCPSender) : TCPSender :=
  if s.timerOn then s
  else
    { s with
      elapsedTime := 0
      rto := s.initialRetransmissionTimeout
      timerOn := true }

/-- Give a segment the next sequence number. -/
def stamp (s : TCPSender) (segment : TCPSegment) : TCPSegment :=
  { segment with header := { segment.header with seqno := s.nextSeqno } }

/-- Send a segment at the next sequence number and keep it for
retransmission. -/
def sendSegment (s : TCPSender) (segment : TCPSegment) : TCPSender :=
  let segment := s.stamp segment
  let next := s.nextSeqnoAbsolute + segment.lengthInSequenceSpace
  startTimer
    { s with
      bytesInFlight := s.bytesInFlight + segment.lengthInSequenceSpace
      nextSeqnoAbsolute := next
      segmentsOut := s.segmentsOut ++ [segment]
      outstandingSegments := s.outstandingSegments.insert next segment
      created := s.created ++ [(s.nextSeqnoAbsolute, segment)] }

/-- Subtract from the 16-bit counter of the remaining window. -/
def consumeWindow (s : TCPSender) (n : ℕ) : TCPSender :=
  { s with
    recvWdnSz := sub16 s.recvWdnSz n
    windowUnderflow := s.windowUnderflow || decide (s.recvWdnSz < n)
    recvWdnSz_lt := sub16_lt _ _ }

/-- The number of bytes that a round of `fill_window` asks the stream for. -/
def readLimit (s : TCPSender) : ℕ :=
  if s.recvWdnSz > TCPConfig.maxPayloadSize then TCPConfig.maxPayloadSize
  else s.recvWdnSz

/-- Read the payload of the next segment from the stream. -/
def readPayload (s : TCPSender) (segment : TCPSegment) :
    TCPSender × TCPSegment :=
  let segment : TCPSegment :=
    { segment with
      payload := Buffer.ofString (s.streamIn.read s.readLimit).1 }
  (consumeWindow { s with streamIn := (s.streamIn.read s.readLimit).2 }
    segment.lengthInSequenceSpace, segment)

/-- Put the FIN flag on the segment when the stream has reached its end and
the window has room for it. -/
def piggybackFin (s : TCPSender) (segment : TCPSegment) :
    TCPSender × TCPSegment :=
  if s.streamIn.eof && decide (s.recvWdnSz > 0) then
    ({ s.consumeWindow 1 with finSent := true }, segment.setFin)
  else (s, segment)

/-- Make the next segment out of the segment object of `fill_window`. -/
def prepareSegment (s : TCPSender) (segment : TCPSegment) :
    TCPSender × TCPSegment :=
  (s.readPayload segment).1.piggybackFin (s.readPayload segment).2

/-- One round of the loop of `fill_window`.  The segment object is shared by
all rounds; it is sent only if it occupies a sequence number. -/
def fillRound (s : TCPSender) (segment : TCPSegment) :
    TCPSender × TCPSegment :=
  let ready := s.prepareSegment segment
  if ready.2.lengthInSequenceSpace > 0 then
    (ready.1.sendSegment ready.2, ready.2)
  else ready

/-- The loop of `fill_window`.  Every round takes a byte from the stream, so
the number of buffered bytes is enough fuel. -/
def fillLoop : ℕ → TCPSender → TCPSegment → TCPSender × TCPSegment
  | 0, s, segment => (s, segment)
  | fuel + 1, s, segment =>
      if s.streamIn.bufferSize > 0 ∧ s.recvWdnSz > 0 then
        fillLoop fuel (s.fillRound segment).1 (s.fillRound segment).2
      else (s, segment)

/-- Send a FIN on its own if it could not travel with the last bytes. -/
def sendFin (s : TCPSender) (segment : TCPSegment) : TCPSender :=
  if !s.finSent && s.streamIn.eof && decide (s.recvWdnSz > 0) then
    { (s.consumeWindow 1).sendSegment segment.setFin with finSent := true }
  else s

/-- Send the SYN, or as much of the stream as the window allows. -/
def fillWindow (s : TCPSender) : TCPSender :=
  if !s.syn then
    sendSegment { s with syn := true } { header := { syn := true } }
  else
    sendFin (fillLoop s.streamIn.bufferSize s {}).1
      (fillLoop s.streamIn.bufferSize s {}).2

/-- Forget the segments up to the one that ends at the acknowledgment number.
Nothing is forgotten if no segment ends there. -/
def removeAcknowledged (s : TCPSender) : TCPSender :=
  match s.outstandingSegments.find? s.absAckno with
  | none => s
  | some segment =>
      let older := s.outstandingSegments.filterKeys (· < s.absAckno)
      { s with
        bytesInFlight :=
          older.entries.foldl
            (fun n e => n - e.2.lengthInSequenceSpace) s.bytesInFlight -
              segment.lengthInSequenceSpace
        outstandingSegments :=
          s.outstandingSegments.filterKeys (s.absAckno < ·) }

/-- Reset the back-off when the acknowledgment number is a new largest one,
and stop the timer when nothing is outstanding. -/
def restartTimer (s : TCPSender) : TCPSender :=
  let s :=
    if s.absAckno > s.maxAbsSeqno then
      { s with
        maxAbsSeqno := s.absAckno
        rto := s.initialRetransmissionTimeout
        consecutiveRetransmissions := 0
        elapsedTime :=
          if s.outstandingSegments.isEmpty then s.elapsedTime else 0 }
    else s
  if s.outstandingSegments.isEmpty then { s with timerOn := false } else s

/-- The absolute acknowledgment number that the sender reads. -/
def absoluteAckno (s : TCPSender) (ackno : WrappingInt32) : ℕ :=
  unwrap ackno s.isn s.absAckno

/-- Compute the remaining window from the window of the peer.  A window of
zero is treated as one of one. -/
def openWindow (s : TCPSender) : TCPSender :=
  { s with
    recvWdnSz :=
      if s.wdnSz = 0 then 1
      else
        sub64 (add64 s.absAckno s.wdnSz) s.nextSeqnoAbsolute % 2 ^ 16
    recvWdnSz_lt := by
      split
      · norm_num
      · exact Nat.mod_lt _ (Nat.two_pow_pos 16) }

/-- Take over the acknowledgment number and the window of the peer. -/
def applyAck (s : TCPSender) (absAckno : ℕ) (windowSize : UInt16) :
    TCPSender :=
  let s : TCPSender :=
    { s with absAckno := absAckno, wdnSz := windowSize.toNat }
  s.removeAcknowledged.openWindow.restartTimer

/-- The peer's window leaves no room. -/
def closeWindow (s : TCPSender) : TCPSender :=
  { s with recvWdnSz := 0, recvWdnSz_lt := Nat.two_pow_pos 16 }

/-- Handle an acknowledgment.  One of an unsent sequence number is ignored,
and one that leaves no room closes the window and has no other effect. -/
def ackReceived (s : TCPSender) (ackno : WrappingInt32)
    (windowSize : UInt16) : TCPSender :=
  let absAckno := s.absoluteAckno ackno
  if absAckno > s.nextSeqnoAbsolute then s
  else if add64 absAckno windowSize.toNat < s.nextSeqnoAbsolute then
    s.closeWindow
  else (s.applyAck absAckno windowSize).fillWindow

/-- Queue the first outstanding segment again. -/
def retransmit (s : TCPSender) : TCPSender :=
  match s.outstandingSegments.entries.head? with
  | some e => { s with segmentsOut := s.segmentsOut ++ [e.2] }
  | none => s

/-- Double the timeout, unless the peer has advertised no window. -/
def backOff (s : TCPSender) : TCPSender :=
  if s.wdnSz > 0 then
    { s with
      consecutiveRetransmissions :=
        (s.consecutiveRetransmissions + 1) % 2 ^ 32
      rto := s.rto * 2 % 2 ^ 32 }
  else s

/-- Let time pass while the timer is running. -/
def advanceTimer (s : TCPSender) (msSinceLastTick : ℕ) : TCPSender :=
  if s.outstandingSegments.isEmpty then
    { s with rto := s.initialRetransmissionTimeout, elapsedTime := 0 }
  else { s with elapsedTime := add64 s.elapsedTime msSinceLastTick }

/-- Let time pass, and retransmit when the timer expires. -/
def tick (s : TCPSender) (msSinceLastTick : ℕ) : TCPSender :=
  if s.timerOn then
    let s := s.advanceTimer msSinceLastTick
    if s.elapsedTime ≥ s.rto then
      { s.retransmit.backOff with elapsedTime := 0 }
    else s
  else s

/-- Queue a segment that occupies no sequence number, to carry an
acknowledgment. -/
def sendEmptySegment (s : TCPSender) : TCPSender :=
  { s with
    segmentsOut :=
      s.segmentsOut ++ [{ header := { ack := true, seqno := s.nextSeqno } }] }

/-! ## The operations of a run -/

/-- What the application, the peer and the clock can do. -/
inductive Op where
  | write (data : Bytes)
  | endInput
  | fillWindow
  | ackReceived (ackno : WrappingInt32) (windowSize : UInt16)
  | tick (ms : ℕ)
  | sendEmptySegment

def step (s : TCPSender) : Op → TCPSender
  | .write data => { s with streamIn := (s.streamIn.write data).2 }
  | .endInput => { s with streamIn := s.streamIn.endInput }
  | .fillWindow => s.fillWindow
  | .ackReceived ackno windowSize => s.ackReceived ackno windowSize
  | .tick ms => s.tick ms
  | .sendEmptySegment => s.sendEmptySegment

/-- Nothing is written after the end of the input. -/
def NoWriteAfterEnd (s : TCPSender) : Op → Prop
  | .write _ => s.streamIn.inputEnded = false
  | .endInput => True
  | .fillWindow => True
  | .ackReceived _ _ => True
  | .tick _ => True
  | .sendEmptySegment => True

instance noWriteAfterEndDecidable (s : TCPSender) :
    ∀ op, Decidable (NoWriteAfterEnd s op)
  | .write _ => inferInstanceAs (Decidable (_ = _))
  | .endInput => isTrue trivial
  | .fillWindow => isTrue trivial
  | .ackReceived _ _ => isTrue trivial
  | .tick _ => isTrue trivial
  | .sendEmptySegment => isTrue trivial

end TCPSender

end Sponge
