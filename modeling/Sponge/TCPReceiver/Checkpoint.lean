import Sponge.TCPReceiver.Ackno

/-!
# The checkpoint of the receiver

The checkpoint is overwritten by every segment that is not ignored, also by
one whose payload lies far outside the window.  So whether the next byte of
the stream is recognised depends on the last segment before it:
`nextByte_written_iff` gives the checkpoints at which it is.
-/

namespace Sponge

namespace TCPReceiver

section NextByte

variable {r : TCPReceiver} {seg : TCPSegment}

/-- A segment that is no SYN is read relative to the stored initial sequence
number. -/
theorem indexOf_of_not_syn (hsyn : seg.header.syn = false) :
    r.indexOf seg = sub64 (unwrap seg.header.seqno r.isn r.checkpoint) 1 := by
  simp [indexOf, streamIndex, hsyn, noteSyn_of_not_syn hsyn, absoluteSeqno]

/-- The segment that carries the next byte is read at the next index, or at
one beyond it. -/
theorem Invariant.indexOf_nextByte
    (h : Invariant r) (hsyn : seg.header.syn = false)
    (hwritten : r.streamOut.bytesWritten < 2 ^ 31)
    (hseqno : seg.header.seqno =
      wrap (r.streamOut.bytesWritten + 1) r.isn) :
    (r.indexOf seg = r.streamOut.bytesWritten ∧
        Recoverable (r.streamOut.bytesWritten + 1) r.checkpoint) ∨
      (r.streamOut.bytesWritten < r.indexOf seg ∧
        ¬ Recoverable (r.streamOut.bytesWritten + 1) r.checkpoint) := by
  have hiff := unwrap_wrap_iff r.isn
    (show r.streamOut.bytesWritten + 1 ≤ 2 ^ 31 by omega) h.checkpoint_lt
  have hmod := unwrap_mod seg.header.seqno r.isn r.checkpoint
  have hlt := unwrap_lt seg.header.seqno r.isn r.checkpoint
  rw [← hseqno] at hiff
  rw [indexOf_of_not_syn hsyn]
  rw [hseqno, relativeSeqno_wrap, ← hseqno] at hmod
  by_cases hrec : Recoverable (r.streamOut.bytesWritten + 1) r.checkpoint
  · refine Or.inl ⟨?_, hrec⟩
    rw [hiff.mpr hrec, sub64_eq (by omega) (by omega), Nat.add_sub_cancel]
  · refine Or.inr ⟨?_, hrec⟩
    have hne : unwrap seg.header.seqno r.isn r.checkpoint ≠
        r.streamOut.bytesWritten + 1 := fun heq => hrec (hiff.mp heq)
    rw [sub64_eq hlt (by omega)]
    omega

/-- A push at the next index writes at least one byte. -/
theorem Invariant.written_of_index_eq
    (h : Invariant r) (htakes : r.Takes seg)
    (hop : r.NoOverflow (.segment seg))
    (hwindow : 0 < r.windowSize) (hpayload : seg.payload.str ≠ [])
    (hindex : r.indexOf seg = r.streamOut.bytesWritten) :
    r.streamOut.bytesWritten + 1 ≤
      (r.segmentReceived seg).streamOut.bytesWritten := by
  have hrange := h.inRange hop htakes
  have hexpected := h.expectedIndex_eq
  have hcov := StreamReassembler.pushSubstring_known h.wellFormed hrange
    (r.ended || seg.header.fin)
  have hupper := h.upperBoundIndex_eq hop hpayload
  rw [h.windowSize_eq] at hwindow
  have hlen := List.length_pos_of_ne_nil hpayload
  have hend : r.reassembler.windowEnd = r.streamOut.bytesWritten +
      r.streamOut.remainingCapacity := by
    rw [StreamReassembler.windowEnd, hexpected]
    rfl
  have hstart : r.indexOf seg < r.reassembler.upperBoundIndex := by
    rw [hupper, hend, hindex]
    omega
  have hacc : r.reassembler.Accepts seg.payload.str (r.indexOf seg) := by
    refine ⟨hwindow, hpayload, hstart, ?_⟩
    rw [add64_eq (hrange hstart), hexpected, hindex]
    omega
  rw [h.bytesWritten_segmentReceived htakes (h.inRange hop)]
  apply (h.wellFormed.pushSubstring hrange _).le_expectedIndex
  rw [hcov, StreamReassembler.acceptedIndices, if_pos hacc]
  intro x hx
  rw [Finset.mem_union, StreamReassembler.mem_known, Finset.mem_Ico,
    StreamReassembler.acceptedStart, StreamReassembler.acceptedStop, hexpected,
    hindex, hend]
  rw [Finset.mem_range] at hx
  omega

/-- A push beyond the next index writes nothing. -/
theorem Invariant.written_of_index_gt
    (h : Invariant r) (htakes : r.Takes seg)
    (hop : r.NoOverflow (.segment seg))
    (hindex : r.streamOut.bytesWritten < r.indexOf seg) :
    (r.segmentReceived seg).streamOut.bytesWritten =
      r.streamOut.bytesWritten := by
  have hrange := h.inRange hop htakes
  rw [h.bytesWritten_segmentReceived htakes (h.inRange hop),
    ← h.expectedIndex_eq]
  rcases StreamReassembler.pushSubstring_cases h.wellFormed.cap_lt hrange
    (r.ended || seg.header.fin) with
    ⟨-, -, heq⟩ | ⟨-, -, -, heq⟩ | ⟨hacc, hbelow, heq⟩
  · rw [heq, StreamReassembler.finish_expectedIndex]
  · rw [heq]
  · rw [heq, StreamReassembler.finish_expectedIndex]
    refine (StreamReassembler.storeAccepted_not_empty h.wellFormed hacc
      hbelow ?_).2
    rw [h.expectedIndex_eq]
    exact hindex

end NextByte

/-- After a SYN and any other operations, the segment with the next byte of
the stream is interpreted at the next index exactly when the checkpoint that
the last segment has left is close enough. -/
theorem nextByte_written_iff
    (capacity : ℕ) (hcapacity : capacity < 2 ^ 64)
    (first : TCPSegment) (hfirst : first.header.syn = true)
    (ops : List Op)
    (hops : Guarded step NoOverflow (new capacity) (.segment first :: ops))
    (r : TCPReceiver)
    (hr : r = run step (new capacity) (.segment first :: ops))
    (hwritten : r.streamOut.bytesWritten < 2 ^ 31)
    (hwindow : 0 < r.windowSize)
    (next : TCPSegment) (hnext : next.header.syn = false)
    (hseqno : next.header.seqno =
      wrap (r.streamOut.bytesWritten + 1) first.header.seqno)
    (hpayload : next.payload.str ≠ [])
    (hop : r.NoOverflow (.segment next)) :
    r.streamOut.bytesWritten + 1 ≤
        (r.segmentReceived next).streamOut.bytesWritten ↔
      Recoverable (r.streamOut.bytesWritten + 1) r.checkpoint := by
  have h : Invariant r := by
    rw [hr]
    exact run_invariant (fun _ _ hs hop => hs.step hop)
      (invariant_new hcapacity) hops
  have hisn : firstSyn (.segment first :: ops) =
      some first.header.seqno := by
    simp [firstSyn, synSeqno, hfirst]
  obtain ⟨hsyn, hrisn⟩ := (firstSyn_eq_some_iff capacity _).mp hisn
  rw [← hr] at hsyn hrisn
  have htakes : r.Takes next := by
    rw [Takes, hnext, hsyn]
    decide
  rw [← hrisn] at hseqno
  rcases h.indexOf_nextByte hnext hwritten hseqno with
    ⟨hindex, hrec⟩ | ⟨hindex, hnot⟩
  · have hsome := h.written_of_index_eq htakes hop hwindow hpayload hindex
    exact ⟨fun _ => hrec, fun _ => hsome⟩
  · have hnone := h.written_of_index_gt htakes hop hindex
    rw [hnone]
    exact ⟨fun hle => absurd hle (by omega), fun hrec => absurd hrec hnot⟩

/-- A SYN and a stray byte far ahead of the window. -/
def strayRun (seqno : UInt32) : List Op :=
  [.segment { header := { syn := true } },
    .segment
      { header := { seqno := ⟨seqno⟩ }
        payload := Buffer.ofString [120] }]

/-- The first byte of a stream whose initial sequence number is zero. -/
def firstByte : TCPSegment where
  header := { seqno := ⟨1⟩ }
  payload := Buffer.ofString [97]

/-- A stray segment not too far ahead does no harm. -/
theorem nextByte_written_after_near_stray :
    (run step (new 10) (strayRun 4096)).streamOut.bytesWritten + 1 ≤
      ((run step (new 10) (strayRun 4096)).segmentReceived
        firstByte).streamOut.bytesWritten :=
  (nextByte_written_iff 10 (by decide) { header := { syn := true } } rfl
    _ (by decide) _ rfl (by decide) (by decide) firstByte rfl (by decide)
    (by decide) (by decide)).mpr (by decide)

/-- A stray segment with the last sequence number before the SYN: the first
byte of the stream is then taken for one that comes `2 ^ 32` later, and is
dropped. -/
theorem nextByte_lost_after_stray :
    (run step (new 10) (strayRun 4294967295)).streamOut.bytesWritten = 0 ∧
      0 < (run step (new 10) (strayRun 4294967295)).windowSize ∧
      firstByte.header.seqno = wrap 1 ⟨0⟩ ∧
      ¬ (run step (new 10) (strayRun 4294967295)).streamOut.bytesWritten +
          1 ≤
        ((run step (new 10) (strayRun 4294967295)).segmentReceived
          firstByte).streamOut.bytesWritten := by
  decide

end TCPReceiver

end Sponge
