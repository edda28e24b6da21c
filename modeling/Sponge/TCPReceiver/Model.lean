import Sponge.StreamReassembler.Model
import Sponge.TCPHelpers.TCPSegment

/-!
# The TCP receiver

The receiver turns the relative sequence number of a segment into a stream
index, hands the payload to the reassembler, and computes the acknowledgment
number and the window that the peer is told.

The checkpoint of `unwrap` is the absolute sequence number of the last segment
that was not ignored, and the flag `_end` is set by the first FIN and never
cleared.  The index of a segment is its absolute sequence number less one; for
the absolute sequence number zero the 64-bit subtraction wraps around.
-/

namespace Sponge

/-- The receiver with its reassembler. -/
structure TCPReceiver where
  reassembler : StreamReassembler
  capacity : ℕ
  ack : WrappingInt32
  isn : WrappingInt32
  expAck : ℕ
  checkpoint : ℕ
  syn : Bool
  ended : Bool

namespace TCPReceiver

/-- A receiver that stores at most `capacity` bytes. -/
def new (capacity : ℕ) : TCPReceiver where
  reassembler := StreamReassembler.new capacity
  capacity := capacity
  ack := ⟨0⟩
  isn := ⟨0⟩
  expAck := 0
  checkpoint := 0
  syn := false
  ended := false

def streamOut (r : TCPReceiver) : ByteStream := r.reassembler.output

def unassembledBytes (r : TCPReceiver) : ℕ := r.reassembler.unassembledBytes

/-- The acknowledgment number, once a SYN has been received. -/
def ackno (r : TCPReceiver) : Option WrappingInt32 :=
  if r.syn then some r.ack else none

/-- The capacity that is not taken by bytes the reader has not consumed. -/
def windowSize (r : TCPReceiver) : ℕ :=
  sub64 r.capacity r.streamOut.bufferSize

/-- Remember the initial sequence number of a SYN. -/
def noteSyn (r : TCPReceiver) (seg : TCPSegment) : TCPReceiver :=
  if seg.header.syn then { r with isn := seg.header.seqno, syn := true }
  else r

/-- The absolute sequence number that the receiver reads from a segment. -/
def absoluteSeqno (r : TCPReceiver) (seg : TCPSegment) : ℕ :=
  unwrap seg.header.seqno r.isn r.checkpoint

/-- The stream index of the first payload byte of a segment with absolute
sequence number `seqno`. -/
def streamIndex (seg : TCPSegment) (seqno : ℕ) : ℕ :=
  if seg.header.syn then 0 else sub64 seqno 1

/-- The acknowledgment number is the number of bytes written, plus one for the
SYN and one for a FIN behind which nothing is waiting. -/
def updateAck (r : TCPReceiver) : TCPReceiver :=
  let expAck := r.streamOut.bytesWritten + 1
  let expAck := if r.ended && r.reassembler.empty then expAck + 1 else expAck
  { r with expAck := expAck, ack := wrap expAck r.isn }

/-- What a receiver that has seen a SYN does with a segment. -/
def accept (r : TCPReceiver) (seg : TCPSegment) : TCPReceiver :=
  let checkpoint := r.absoluteSeqno seg
  let ended := r.ended || seg.header.fin
  let reassembler :=
    r.reassembler.pushSubstring seg.payload.str (streamIndex seg checkpoint)
      ended
  updateAck
    { r with
      checkpoint := checkpoint
      ended := ended
      reassembler := reassembler }

/-- Handle an inbound segment. -/
def segmentReceived (r : TCPReceiver) (seg : TCPSegment) : TCPReceiver :=
  if seg.header.syn && r.syn then r
  else if (r.noteSyn seg).syn then (r.noteSyn seg).accept seg
  else r.noteSyn seg

/-- Take bytes from the inbound stream. -/
def popOutput (r : TCPReceiver) (len : ℕ) : TCPReceiver :=
  { r with reassembler := r.reassembler.popOutput len }

/-- The inbound stream suffers an error. -/
def setError (r : TCPReceiver) : TCPReceiver :=
  { r with
    reassembler :=
      { r.reassembler with output := r.reassembler.output.setError } }

end TCPReceiver

end Sponge
