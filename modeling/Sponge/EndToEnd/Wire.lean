import Sponge.EndToEnd.Pair
import Sponge.TCPHelpers.FdAdapter

/-!
# Segments on the wire

Between two connections a segment is a string of bytes.  The adapter of the
sending end writes the ports into the header and the serializer adds the
checksum; what the parser of the other end returns is the same segment but for
these three fields and for the way in which the payload is stored.  A
connection looks at none of them.
-/

namespace Sponge

open TCPSegment (Arrives Fits)

section Arrives

variable {seg seg' : TCPSegment}

theorem TCPReceiver.segmentReceived_arrives
    (r : TCPReceiver) (h : Arrives seg seg') :
    r.segmentReceived seg' = r.segmentReceived seg := by
  obtain ⟨sport, dport, cksum, hheader⟩ := h.header
  unfold segmentReceived noteSyn accept absoluteSeqno streamIndex
  rw [hheader, h.payload]

theorem TCPConnection.ackSender_arrives
    (c : TCPConnection) (h : Arrives seg seg') :
    c.ackSender seg' = c.ackSender seg := by
  obtain ⟨sport, dport, cksum, hheader⟩ := h.header
  unfold ackSender
  rw [hheader]

theorem TCPConnection.reply_arrives
    (c : TCPConnection) (h : Arrives seg seg') :
    c.reply seg' = c.reply seg := by
  obtain ⟨sport, dport, cksum, hheader⟩ := h.header
  unfold reply opens
  rw [hheader]

theorem TCPConnection.handle_arrives
    (c : TCPConnection) (h : Arrives seg seg') :
    c.handle seg' = c.handle seg := by
  have hlength : seg'.lengthInSequenceSpace = seg.lengthInSequenceSpace := by
    obtain ⟨sport, dport, cksum, hheader⟩ := h.header
    rw [TCPSegment.lengthInSequenceSpace, hheader, h.payload]
    rfl
  unfold handle
  rw [hlength, c.receiver.segmentReceived_arrives h]
  simp only [ackSender_arrives _ h, reply_arrives _ h]

/-- A connection does not see what happens to a segment on the wire. -/
theorem TCPConnection.segmentReceived_arrives
    (c : TCPConnection) (h : Arrives seg seg') :
    c.segmentReceived seg' = c.segmentReceived seg := by
  obtain ⟨sport, dport, cksum, hheader⟩ := h.header
  unfold segmentReceived
  simp only [handle_arrives _ h]
  rw [hheader]

end Arrives

namespace TCPConnection

/-- Whatever a connection sends fits into a datagram. -/
theorem Outbound.fits
    {c : TCPConnection} (h : Outbound c) (hseg : c.sender.Segmented) :
    ∀ seg ∈ c.segmentsOut, Fits seg := by
  intro seg hmem
  obtain ⟨made, hmade, hsame⟩ := h.sent seg hmem
  refine ⟨hsame.doff.trans (h.stocked.made_doff hmade), ?_⟩
  rw [hsame.payload]
  rcases hmade with ⟨n, hcreated⟩ | ⟨n, -, rfl⟩
  · exact hseg.small _ hcreated
  · exact Nat.zero_le _

end TCPConnection

end Sponge
