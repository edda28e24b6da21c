import Sponge.Util.Buffer
import Sponge.WrappingIntegers

/-!
# TCP segments

The header and the payload of a segment, with the default values that a new
segment has in the source, and the length of a segment in sequence space.
-/

namespace Sponge

/-- The fields of a TCP header. -/
structure TCPHeader where
  sport : UInt16 := 0
  dport : UInt16 := 0
  seqno : WrappingInt32 := ⟨0⟩
  ackno : WrappingInt32 := ⟨0⟩
  doff : UInt8 := 5
  urg : Bool := false
  ack : Bool := false
  psh : Bool := false
  rst : Bool := false
  syn : Bool := false
  fin : Bool := false
  win : UInt16 := 0
  cksum : UInt16 := 0
  uptr : UInt16 := 0
deriving DecidableEq

/-- A header and a payload. -/
structure TCPSegment where
  header : TCPHeader := {}
  payload : Buffer := Buffer.empty
deriving DecidableEq

namespace TCPSegment

/-- Payload bytes, plus one for SYN and one for FIN. -/
def lengthInSequenceSpace (seg : TCPSegment) : ℕ :=
  seg.payload.str.length + (if seg.header.syn then 1 else 0) +
    (if seg.header.fin then 1 else 0)

/-- The segment with the FIN flag. -/
def setFin (seg : TCPSegment) : TCPSegment :=
  { seg with header := { seg.header with fin := true } }

theorem lengthInSequenceSpace_eq (seg : TCPSegment) :
    seg.lengthInSequenceSpace =
      seg.payload.size + seg.header.syn.toNat + seg.header.fin.toNat := by
  have hflag : ∀ b : Bool, (if b then 1 else 0) = b.toNat := by decide
  rw [lengthInSequenceSpace, hflag, hflag]
  rfl

theorem setFin_length {seg : TCPSegment} (h : seg.header.fin = false) :
    seg.setFin.lengthInSequenceSpace = seg.lengthInSequenceSpace + 1 := by
  rw [lengthInSequenceSpace_eq, lengthInSequenceSpace_eq, h]
  rfl

end TCPSegment

end Sponge
