import Sponge.StreamReassembler.Push
import Sponge.Support.Run
import Sponge.TCPReceiver.Model

/-!
# The receiver's invariant

`segment_received` either ignores a segment or hands it to the reassembler.
In every reachable state the reassembler is well formed, the end-of-stream
flags imply each other from the output inwards, a receiver without a SYN has
taken nothing, and the acknowledgment number is the one that `updateAck` computes
from the present state.

The contents and the sequence numbers of the segments are arbitrary.
-/

namespace Sponge

namespace TCPReceiver

/-! ## What a segment does -/

/-- The segment is not ignored: it is the first SYN, or it comes after it and
is no SYN. -/
def Takes (r : TCPReceiver) (seg : TCPSegment) : Prop :=
  seg.header.syn ≠ r.syn

instance takesDecidable (r : TCPReceiver) (seg : TCPSegment) :
    Decidable (r.Takes seg) :=
  inferInstanceAs (Decidable (_ ≠ _))

/-- The stream index at which a segment that is not ignored is read. -/
def indexOf (r : TCPReceiver) (seg : TCPSegment) : ℕ :=
  streamIndex seg ((r.noteSyn seg).absoluteSeqno seg)

/-- Noting the SYN changes nothing but the flag and the initial sequence
number. -/
theorem noteSyn_unchanged
    {β : Type*} {r : TCPReceiver} (f : TCPReceiver → β)
    (h : ∀ isn, f { r with isn := isn, syn := true } = f r)
    (seg : TCPSegment) : f (r.noteSyn seg) = f r := by
  unfold noteSyn
  split
  · exact h seg.header.seqno
  · rfl

@[simp] theorem noteSyn_reassembler (r : TCPReceiver) (seg : TCPSegment) :
    (r.noteSyn seg).reassembler = r.reassembler :=
  noteSyn_unchanged reassembler (fun _ => rfl) seg

@[simp] theorem noteSyn_ended (r : TCPReceiver) (seg : TCPSegment) :
    (r.noteSyn seg).ended = r.ended :=
  noteSyn_unchanged ended (fun _ => rfl) seg

@[simp] theorem noteSyn_capacity (r : TCPReceiver) (seg : TCPSegment) :
    (r.noteSyn seg).capacity = r.capacity :=
  noteSyn_unchanged capacity (fun _ => rfl) seg

@[simp] theorem noteSyn_checkpoint (r : TCPReceiver) (seg : TCPSegment) :
    (r.noteSyn seg).checkpoint = r.checkpoint :=
  noteSyn_unchanged checkpoint (fun _ => rfl) seg

theorem noteSyn_of_syn
    {r : TCPReceiver} {seg : TCPSegment} (h : seg.header.syn = true) :
    r.noteSyn seg = { r with isn := seg.header.seqno, syn := true } :=
  if_pos h

theorem noteSyn_of_not_syn
    {r : TCPReceiver} {seg : TCPSegment} (h : seg.header.syn = false) :
    r.noteSyn seg = r := by
  simp [noteSyn, h]

theorem segmentReceived_of_not_takes
    {r : TCPReceiver} {seg : TCPSegment} (h : ¬ r.Takes seg) :
    r.segmentReceived seg = r := by
  have heq : seg.header.syn = r.syn := not_not.mp h
  cases hsyn : r.syn with
  | true => simp [segmentReceived, heq, hsyn]
  | false =>
      rw [hsyn] at heq
      simp [segmentReceived, noteSyn_of_not_syn heq, hsyn]

theorem noteSyn_syn_of_takes
    {r : TCPReceiver} {seg : TCPSegment} (h : r.Takes seg) :
    (r.noteSyn seg).syn = true := by
  unfold Takes at h
  cases hseg : seg.header.syn with
  | true => rw [noteSyn_of_syn hseg]
  | false =>
      rw [noteSyn_of_not_syn hseg]
      simpa [hseg] using h

theorem segmentReceived_of_takes
    {r : TCPReceiver} {seg : TCPSegment} (h : r.Takes seg) :
    r.segmentReceived seg = (r.noteSyn seg).accept seg := by
  have hsyn := noteSyn_syn_of_takes h
  have hno : ¬ (seg.header.syn && r.syn) = true := by
    unfold Takes at h
    rw [Bool.and_eq_true]
    rintro ⟨hseg, hr⟩
    exact h (hseg.trans hr.symm)
  rw [segmentReceived, if_neg hno, if_pos hsyn]

/-- The push that a segment causes. -/
theorem segmentReceived_reassembler
    {r : TCPReceiver} {seg : TCPSegment} (h : r.Takes seg) :
    (r.segmentReceived seg).reassembler =
      r.reassembler.pushSubstring seg.payload.str (r.indexOf seg)
        (r.ended || seg.header.fin) := by
  rw [segmentReceived_of_takes h]
  simp [accept, updateAck, indexOf]

theorem segmentReceived_ended
    {r : TCPReceiver} {seg : TCPSegment} (h : r.Takes seg) :
    (r.segmentReceived seg).ended = (r.ended || seg.header.fin) := by
  rw [segmentReceived_of_takes h]
  simp [accept, updateAck]

theorem segmentReceived_syn
    {r : TCPReceiver} {seg : TCPSegment} (h : r.Takes seg) :
    (r.segmentReceived seg).syn = true := by
  rw [segmentReceived_of_takes h]
  exact noteSyn_syn_of_takes h

theorem segmentReceived_checkpoint
    {r : TCPReceiver} {seg : TCPSegment} (h : r.Takes seg) :
    (r.segmentReceived seg).checkpoint =
      (r.noteSyn seg).absoluteSeqno seg := by
  rw [segmentReceived_of_takes h]
  rfl

theorem segmentReceived_isn
    {r : TCPReceiver} {seg : TCPSegment} (h : r.Takes seg) :
    (r.segmentReceived seg).isn = (r.noteSyn seg).isn := by
  rw [segmentReceived_of_takes h]
  rfl

@[simp] theorem segmentReceived_capacity
    (r : TCPReceiver) (seg : TCPSegment) :
    (r.segmentReceived seg).capacity = r.capacity := by
  by_cases h : r.Takes seg
  · rw [segmentReceived_of_takes h]
    simp [accept, updateAck]
  · rw [segmentReceived_of_not_takes h]

@[simp] theorem segmentReceived_error
    (r : TCPReceiver) (seg : TCPSegment) :
    (r.segmentReceived seg).streamOut.error = r.streamOut.error := by
  by_cases h : r.Takes seg
  · rw [streamOut, segmentReceived_reassembler h]
    exact (StreamReassembler.pushSubstring_writerOnly _ _ _ _).error
  · rw [segmentReceived_of_not_takes h]

/-! ## The invariant -/

/-- The absolute acknowledgment number that the code computes. -/
def computedAck (r : TCPReceiver) : ℕ :=
  1 + r.streamOut.bytesWritten + (r.ended && r.reassembler.empty).toNat

theorem updateAck_expAck (r : TCPReceiver) :
    r.updateAck.expAck = r.updateAck.computedAck := by
  simp only [updateAck, computedAck, streamOut]
  cases r.ended && r.reassembler.empty with
  | true =>
      rw [if_pos rfl, Bool.toNat_true]
      omega
  | false =>
      rw [if_neg Bool.false_ne_true, Bool.toNat_false]
      omega

/-- What holds in every reachable state. -/
structure Invariant (r : TCPReceiver) : Prop where
  wellFormed : r.reassembler.WellFormed
  cap_eq : r.streamOut.cap = r.capacity
  checkpoint_lt : r.checkpoint < 2 ^ 64
  ended_of_inputEnded : r.reassembler.inputEnded = true → r.ended = true
  inputEnded_of_output :
    r.streamOut.inputEnded = true → r.reassembler.inputEnded = true
  untouched : r.syn = false →
    r.expAck = 0 ∧ r.checkpoint = 0 ∧ r.ended = false ∧
      r.reassembler.empty = true ∧ r.reassembler.expectedIndex = 0
  expAck_eq : r.syn = true → r.expAck = r.computedAck
  ack_eq : r.syn = true → r.ack = wrap r.expAck r.isn

theorem invariant_new {capacity : ℕ} (h : capacity < 2 ^ 64) :
    Invariant (new capacity) where
  wellFormed := StreamReassembler.wellFormed_new h
  cap_eq := rfl
  checkpoint_lt := Nat.two_pow_pos 64
  ended_of_inputEnded := nofun
  inputEnded_of_output := nofun
  untouched := fun _ => ⟨rfl, rfl, rfl, rfl, rfl⟩
  expAck_eq := nofun
  ack_eq := nofun

/-- The substring of a segment that is not ignored ends below `2 ^ 64` if it
starts inside the window. -/
def InRange (r : TCPReceiver) (seg : TCPSegment) : Prop :=
  r.Takes seg → r.reassembler.InRange seg.payload.str (r.indexOf seg)

theorem Invariant.segmentReceived
    {r : TCPReceiver} (h : Invariant r) {seg : TCPSegment}
    (hrange : r.InRange seg) :
    Invariant (r.segmentReceived seg) := by
  by_cases htakes : r.Takes seg
  · have hpush := segmentReceived_reassembler htakes
    have hended := segmentReceived_ended htakes
    have hcap := h.wellFormed.cap_lt
    refine
      { wellFormed := ?_
        cap_eq := ?_
        checkpoint_lt := ?_
        ended_of_inputEnded := ?_
        inputEnded_of_output := ?_
        untouched := ?_
        expAck_eq := ?_
        ack_eq := ?_ }
    · rw [hpush]
      exact h.wellFormed.pushSubstring (hrange htakes) _
    · rw [streamOut, hpush, StreamReassembler.pushSubstring_cap,
        segmentReceived_capacity]
      exact h.cap_eq
    · rw [segmentReceived_checkpoint htakes]
      exact unwrap_lt _ _ _
    · intro hinput
      rw [hpush] at hinput
      rw [hended]
      rcases StreamReassembler.eof_of_pushSubstring_inputEnded hcap
        (hrange htakes) hinput with hold | hnew
      · rw [h.ended_of_inputEnded hold, Bool.true_or]
      · exact hnew
    · intro hout
      rw [streamOut, hpush] at hout
      rw [hpush]
      exact StreamReassembler.inputEnded_of_pushSubstring_output hcap
        (hrange htakes) h.inputEnded_of_output hout
    · intro hsyn
      rw [segmentReceived_syn htakes] at hsyn
      exact absurd hsyn (by decide)
    · intro _
      rw [segmentReceived_of_takes htakes]
      exact updateAck_expAck _
    · intro _
      rw [segmentReceived_of_takes htakes]
      rfl
  · rw [segmentReceived_of_not_takes htakes]
    exact h

theorem Invariant.expectedIndex_eq {r : TCPReceiver} (h : Invariant r) :
    r.reassembler.expectedIndex = r.streamOut.bytesWritten :=
  h.wellFormed.expected_eq

/-- The bytes written after a segment, in terms of its push. -/
theorem Invariant.bytesWritten_segmentReceived
    {r : TCPReceiver} (h : Invariant r) {seg : TCPSegment}
    (htakes : r.Takes seg) (hrange : r.InRange seg) :
    (r.segmentReceived seg).streamOut.bytesWritten =
      (r.reassembler.pushSubstring seg.payload.str (r.indexOf seg)
        (r.ended || seg.header.fin)).expectedIndex := by
  rw [← segmentReceived_reassembler htakes]
  exact (h.segmentReceived hrange).expectedIndex_eq.symm

@[simp] theorem popOutput_streamOut (r : TCPReceiver) (len : ℕ) :
    (r.popOutput len).streamOut = r.streamOut.popOutput len := rfl

@[simp] theorem popOutput_empty (r : TCPReceiver) (len : ℕ) :
    (r.popOutput len).reassembler.empty = r.reassembler.empty := rfl

@[simp] theorem popOutput_ended (r : TCPReceiver) (len : ℕ) :
    (r.popOutput len).ended = r.ended := rfl

theorem Invariant.popOutput
    {r : TCPReceiver} (h : Invariant r) (len : ℕ) :
    Invariant (r.popOutput len) where
  wellFormed := h.wellFormed.popOutput len
  cap_eq := by
    rw [popOutput_streamOut, ByteStream.popOutput_cap]
    exact h.cap_eq
  checkpoint_lt := h.checkpoint_lt
  ended_of_inputEnded := h.ended_of_inputEnded
  inputEnded_of_output := by
    rw [popOutput_streamOut, ByteStream.popOutput_inputEnded]
    exact h.inputEnded_of_output
  untouched := h.untouched
  expAck_eq := by
    rw [computedAck, popOutput_streamOut, ByteStream.popOutput_bytesWritten]
    exact h.expAck_eq
  ack_eq := h.ack_eq

/-- The window that the peer is told is the room in the inbound stream. -/
theorem Invariant.windowSize_eq {r : TCPReceiver} (h : Invariant r) :
    r.windowSize = r.streamOut.remainingCapacity := by
  have hcap := h.wellFormed.cap_lt
  have hsize := r.streamOut.bufferSize_le
  rw [windowSize, ← h.cap_eq, ByteStream.remainingCapacity_eq]
  exact sub64_eq hcap hsize

/-! ## Runs -/

/-- The operations of a run: an inbound segment, and the two ways to take
bytes from the inbound stream. -/
inductive Op where
  | segment (seg : TCPSegment)
  | pop (len : ℕ)
  | read (len : ℕ)

def step (r : TCPReceiver) : Op → TCPReceiver
  | .segment seg => r.segmentReceived seg
  | .pop len => r.popOutput len
  | .read len =>
      { r with
        reassembler :=
          { r.reassembler with output := (r.streamOut.read len).2 } }

@[simp] theorem step_segment (r : TCPReceiver) (seg : TCPSegment) :
    r.step (.segment seg) = r.segmentReceived seg := rfl

@[simp] theorem step_pop (r : TCPReceiver) (len : ℕ) :
    r.step (.pop len) = r.popOutput len := rfl

@[simp] theorem step_read (r : TCPReceiver) (len : ℕ) :
    r.step (.read len) = r.popOutput len := rfl

/-- Neither the window nor a payload that starts inside it exceeds the 64-bit
range. -/
def NoOverflow (r : TCPReceiver) : Op → Prop
  | .segment seg =>
      r.streamOut.bytesRead + r.capacity + seg.payload.size ≤ 2 ^ 64
  | .pop _ => True
  | .read _ => True

instance noOverflowDecidable (r : TCPReceiver) :
    ∀ op, Decidable (NoOverflow r op)
  | .segment _ => inferInstanceAs (Decidable (_ ≤ _))
  | .pop _ => isTrue trivial
  | .read _ => isTrue trivial

theorem Invariant.windowEnd_eq {r : TCPReceiver} (h : Invariant r) :
    r.reassembler.windowEnd = r.streamOut.bytesRead + r.capacity := by
  rw [StreamReassembler.windowEnd_eq h.wellFormed.expected_eq, ← h.cap_eq]
  rfl

theorem Invariant.inRange
    {r : TCPReceiver} (h : Invariant r) {seg : TCPSegment}
    (hop : r.NoOverflow (.segment seg)) : r.InRange seg := by
  intro _ hstart
  have hupper := r.reassembler.upperBoundIndex_le_windowEnd
  rw [h.windowEnd_eq] at hupper
  have hsize : seg.payload.size = seg.payload.str.length := rfl
  simp only [NoOverflow] at hop
  omega

/-- The bound of the window is not reduced when there is a byte to store. -/
theorem Invariant.upperBoundIndex_eq
    {r : TCPReceiver} (h : Invariant r) {seg : TCPSegment}
    (hop : r.NoOverflow (.segment seg)) (hne : seg.payload.str ≠ []) :
    r.reassembler.upperBoundIndex = r.reassembler.windowEnd := by
  have hpos := List.length_pos_of_ne_nil hne
  have hsize : seg.payload.size = seg.payload.str.length := rfl
  have hlt : r.reassembler.windowEnd < 2 ^ 64 := by
    rw [h.windowEnd_eq]
    simp only [NoOverflow] at hop
    omega
  exact Nat.mod_eq_of_lt hlt

theorem Invariant.step
    {r : TCPReceiver} (h : Invariant r) {op : Op} (hop : r.NoOverflow op) :
    Invariant (r.step op) := by
  cases op with
  | segment seg => exact h.segmentReceived (h.inRange hop)
  | pop len => exact h.popOutput len
  | read len => exact h.popOutput len

end TCPReceiver

end Sponge
