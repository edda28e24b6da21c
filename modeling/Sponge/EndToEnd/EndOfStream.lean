import Sponge.EndToEnd.Model

/-!
# The end of the stream

The receiver keeps from a FIN one bit, without its position: `_end` is set by
the first FIN and is passed to the reassembler with every later segment, and
the reassembler ends its output as soon as nothing waits to be assembled.  So
a FIN that overtakes the bytes before it ends the stream early.

This happens exactly when a segment is taken at a moment at which the end is
known and the bytes known so far, with those of the segment, are a proper
initial part of the stream.
-/

namespace Sponge

namespace System

/-- The end of the inbound stream means that all bytes have arrived. -/
def EndAgrees (s : System) : Prop :=
  s.receiver.streamOut.inputEnded = true →
    s.sender.streamIn.inputEnded = true ∧
      s.receiver.streamOut.bytesWritten = s.sender.streamIn.bytesWritten

/-- After the segment the receiver knows of the end, and it holds the first
bytes of the stream without a gap, but not all of them. -/
def EndsEarly (s : System) (seg : TCPSegment) : Prop :=
  s.receiver.Takes seg ∧
    s.receiver.reassembler.LearnsEnd seg.payload.str
      (s.receiver.indexOf seg) (s.receiver.ended || seg.header.fin) ∧
    ∃ m < s.sender.streamIn.bytesWritten,
      s.receiver.reassembler.known ∪
        s.receiver.reassembler.acceptedIndices seg.payload.str
          (s.receiver.indexOf seg) = Finset.range m

instance endsEarlyDecidable (s : System) (seg : TCPSegment) :
    Decidable (EndsEarly s seg) :=
  inferInstanceAs (Decidable (_ ∧ _ ∧ _))

/-- No delivered segment ends the stream early. -/
def EndsInTime (s : System) : Op → Prop
  | .deliver i =>
      ∀ seg ∈ s.sender.segmentsOut[i]?, ¬ EndsEarly s seg
  | .send _ => True
  | .pop _ => True
  | .read _ => True

instance endsInTimeDecidable (s : System) :
    ∀ op, Decidable (EndsInTime s op)
  | .deliver i =>
      match h : s.sender.segmentsOut[i]? with
      | none => isTrue (by simp [EndsInTime, h])
      | some seg =>
          decidable_of_iff (¬ EndsEarly s seg) (by simp [EndsInTime, h])
  | .send _ => isTrue trivial
  | .pop _ => isTrue trivial
  | .read _ => isTrue trivial

/-- Nothing is written after the end of the input, and the stream is shorter
than `2 ^ 31` bytes. -/
def ShortStream (s : System) (op : Op) : Prop :=
  NoWriteAfterEnd s op ∧
    (s.step op).sender.streamIn.bytesWritten < 2 ^ 31

instance shortStreamDecidable (s : System) (op : Op) :
    Decidable (ShortStream s op) :=
  inferInstanceAs (Decidable (_ ∧ _))

/-! ## The receiver and the length of the stream -/

/-- The receiver knows no byte at an index between the end of the stream and
`2 ^ 31`. -/
structure Bounded (n : ℕ) (isn : WrappingInt32) (r : TCPReceiver) :
    Prop where
  invariant : r.Invariant
  isn_eq : r.syn = true → r.isn = isn
  room : r.streamOut.cap + 2 ^ 32 ≤ 2 ^ 64
  known : ∀ x ∈ r.reassembler.known, x < n ∨ 2 ^ 31 ≤ x
  done : r.reassembler.inputEnded = true → r.reassembler.empty = true →
    r.streamOut.inputEnded = true

section Bounded

variable {S : Bytes} {ended : Bool} {isn : WrappingInt32} {r : TCPReceiver}
  {seg : TCPSegment} {n k : ℕ}

/-- Not more is written than the stream has. -/
theorem Bounded.expectedIndex_le
    (h : Bounded k isn r) (hk : k < 2 ^ 31) :
    r.reassembler.expectedIndex ≤ k := by
  by_contra hlt
  have hmem : k ∈ r.reassembler.known :=
    StreamReassembler.mem_known.mpr (Or.inl (not_le.mp hlt))
  rcases h.known k hmem with hself | hfar
  · exact lt_irrefl k hself
  · omega

/-- The receiver reads a segment at its own sequence number or beyond
`2 ^ 32`. -/
theorem Bounded.absoluteSeqno_cases
    (h : Bounded k isn r) (hseg : Carries S ended isn n seg)
    (hn : n < 2 ^ 32) (htakes : r.Takes seg) :
    (r.noteSyn seg).absoluteSeqno seg = n ∨
      2 ^ 32 ≤ (r.noteSyn seg).absoluteSeqno seg := by
  have hmod : (r.noteSyn seg).absoluteSeqno seg % 2 ^ 32 = n := by
    rw [TCPReceiver.absoluteSeqno, hseg.noteSyn_isn htakes h.isn_eq,
      hseg.seqno, unwrap_mod, relativeSeqno_wrap]
    exact Nat.mod_eq_of_lt hn
  omega

/-- The bytes of a segment lie inside the stream or beyond `2 ^ 31`. -/
theorem Bounded.indexOf_cases
    (h : Bounded k isn r) (hseg : Carries S ended isn n seg)
    (hn : n < 2 ^ 32) (htakes : r.Takes seg)
    (hne : seg.payload.str ≠ []) :
    r.indexOf seg + seg.payload.str.length ≤ S.length ∨
      2 ^ 31 ≤ r.indexOf seg := by
  have hsyn : ¬ seg.header.syn = true := fun hsyn => hne (hseg.syn hsyn).2
  obtain ⟨hpos, hwithin, -⟩ := hseg.payload.resolve_left hne
  have hlt : (r.noteSyn seg).absoluteSeqno seg < 2 ^ 64 := unwrap_lt _ _ _
  rw [TCPReceiver.indexOf, TCPReceiver.streamIndex, if_neg hsyn]
  rcases h.absoluteSeqno_cases hseg hn htakes with heq | hfar
  · left
    rw [heq, sub64_eq (by omega) hpos]
    exact hwithin
  · right
    rw [sub64_eq hlt (by omega)]
    omega

theorem Bounded.inRange
    (h : Bounded S.length isn r) (hseg : Carries S ended isn n seg)
    (hS : S.length < 2 ^ 31) : r.InRange seg := by
  intro htakes hupper
  by_cases hnil : seg.payload.str = []
  · have hlt := add64_lt r.reassembler.expectedIndex
      r.reassembler.output.remainingCapacity
    rw [StreamReassembler.upperBoundIndex] at hupper
    rw [hnil, List.length_nil]
    omega
  · have hwindow := r.reassembler.upperBoundIndex_le_windowEnd
    have hexpected := h.expectedIndex_le hS
    have hread := r.streamOut.bytesWritten_eq
    have hroom := h.room
    obtain ⟨-, hwithin, -⟩ := hseg.payload.resolve_left hnil
    rw [h.invariant.windowEnd_eq] at hwindow
    rw [h.invariant.expectedIndex_eq] at hexpected
    rw [h.invariant.cap_eq] at hroom
    omega

/-- A segment of the stream keeps the bounds. -/
theorem Bounded.segmentReceived
    (h : Bounded S.length isn r) (hseg : Carries S ended isn n seg)
    (hn : n < 2 ^ 32) (hS : S.length < 2 ^ 31) :
    Bounded S.length isn (r.segmentReceived seg) := by
  have hrange := h.inRange hseg hS
  have hinvariant := h.invariant.segmentReceived hrange
  by_cases htakes : r.Takes seg
  · have hpush := TCPReceiver.segmentReceived_reassembler htakes
    have hcap := h.invariant.wellFormed.cap_lt
    refine
      { invariant := hinvariant
        isn_eq := fun _ => ?_
        room := ?_
        known := ?_
        done := ?_ }
    · rw [TCPReceiver.segmentReceived_isn htakes]
      exact hseg.noteSyn_isn htakes h.isn_eq
    · rw [TCPReceiver.streamOut, hpush, StreamReassembler.pushSubstring_cap]
      exact h.room
    · intro x hx
      rw [hpush, StreamReassembler.pushSubstring_known h.invariant.wellFormed
        (hrange htakes), Finset.mem_union] at hx
      rcases hx with hold | hnew
      · exact h.known x hold
      · obtain ⟨hne, hlow, hhigh⟩ :=
          StreamReassembler.mem_acceptedIndices hnew
        rcases h.indexOf_cases hseg hn htakes hne with hin | hfar
        · exact Or.inl (lt_of_lt_of_le hhigh hin)
        · exact Or.inr (hfar.trans hlow)
    · rw [TCPReceiver.streamOut, hpush]
      intro hends hempty
      exact (StreamReassembler.pushSubstring_output_inputEnded_iff hcap
        (hrange htakes) h.done).mpr (Or.inr
          ⟨(StreamReassembler.pushSubstring_inputEnded_iff hcap
            (hrange htakes)).mp hends, hempty⟩)
  · rw [TCPReceiver.segmentReceived_of_not_takes htakes]
    exact h

theorem Bounded.extend
    {m : ℕ} (h : Bounded k isn r) (hle : k ≤ m) : Bounded m isn r where
  invariant := h.invariant
  isn_eq := h.isn_eq
  room := h.room
  known := fun x hx =>
    (h.known x hx).imp_left fun hlt => lt_of_lt_of_le hlt hle
  done := h.done

theorem Bounded.popOutput (h : Bounded k isn r) (len : ℕ) :
    Bounded k isn (r.popOutput len) where
  invariant := h.invariant.popOutput len
  isn_eq := h.isn_eq
  room := by
    rw [TCPReceiver.popOutput_streamOut, ByteStream.popOutput_cap]
    exact h.room
  known := h.known
  done := by
    rw [TCPReceiver.popOutput_streamOut, ByteStream.popOutput_inputEnded]
    exact h.done

end Bounded

/-! ## The system -/

/-- What holds throughout a run with a short stream. -/
structure EndLinked (s : System) : Prop where
  segmented : s.sender.Segmented
  sent : Sent s.sender
  short : s.sender.streamIn.written.length < 2 ^ 31
  bounded : Bounded s.sender.streamIn.written.length s.sender.isn s.receiver
  ended : s.receiver.ended = true → s.sender.streamIn.inputEnded = true

theorem endLinked_new
    (sendCapacity : ℕ) (retxTimeout : UInt16)
    (fixedIsn : Option WrappingInt32) (randomIsn : UInt32)
    {recvCapacity : ℕ} (h : recvCapacity + 2 ^ 32 ≤ 2 ^ 64) :
    EndLinked (new sendCapacity retxTimeout fixedIsn randomIsn
      recvCapacity) where
  segmented := TCPSender.segmented_new _ _ _ _
  sent := fun _ hmem => absurd hmem List.not_mem_nil
  short := Nat.two_pow_pos 31
  bounded :=
    { invariant := TCPReceiver.invariant_new (by omega)
      isn_eq := fun hsyn => absurd hsyn Bool.false_ne_true
      room := h
      known := fun _ hx => absurd hx (Finset.notMem_empty _)
      done := fun hends => absurd hends Bool.false_ne_true }
  ended := fun hends => absurd hends Bool.false_ne_true

section EndLinked

variable {s : System}

/-- The sequence numbers are those of the stream, the SYN and the FIN. -/
theorem EndLinked.next_lt (h : EndLinked s) :
    s.sender.nextSeqnoAbsolute < 2 ^ 32 := by
  have hnext := h.segmented.next_eq
  have hpopped := (popped_prefix_written s.sender.streamIn).length_le
  have hshort := h.short
  have hsyn := Bool.toNat_le s.sender.syn
  have hfin := Bool.toNat_le s.sender.finSent
  omega

theorem EndLinked.deliver
    (h : EndLinked s) {seg : TCPSegment}
    (hmem : seg ∈ s.sender.segmentsOut) :
    EndLinked { s with receiver := s.receiver.segmentReceived seg } := by
  obtain ⟨n, hle, hcarries⟩ := h.sent seg hmem
  have hnext := h.next_lt
  refine
    { segmented := h.segmented
      sent := h.sent
      short := h.short
      bounded := h.bounded.segmentReceived hcarries (by omega) h.short
      ended := ?_ }
  by_cases htakes : s.receiver.Takes seg
  · simp only [TCPReceiver.segmentReceived_ended htakes, Bool.or_eq_true]
    rintro (hbefore | hfin)
    · exact h.ended hbefore
    · exact hcarries.fin hfin
  · simp only [TCPReceiver.segmentReceived_of_not_takes htakes]
    exact h.ended

theorem EndLinked.step
    {op : Op} (h : EndLinked s) (hop : ShortStream s op) :
    EndLinked (s.step op) := by
  obtain ⟨hwrite, hshort⟩ := hop
  cases op with
  | send op =>
      have hcont := retains_step s.sender op
      rw [ByteStream.bytesWritten_eq_length] at hshort
      refine
        { segmented := h.segmented.step hwrite
          sent := h.sent.step h.segmented hwrite
          short := hshort
          bounded := ?_
          ended := fun hends => hcont.inputEnded (h.ended hends) }
      rw [System.step, hcont.isn]
      exact h.bounded.extend hcont.written.length_le
  | deliver i =>
      rcases s.deliver_cases i with ⟨-, heq⟩ | ⟨seg, hmem, -, heq⟩
      · rw [System.step, heq]
        exact h
      · rw [System.step, heq]
        exact h.deliver hmem
  | pop len =>
      exact
        { segmented := h.segmented
          sent := h.sent
          short := h.short
          bounded := h.bounded.popOutput len
          ended := h.ended }
  | read len =>
      exact
        { segmented := h.segmented
          sent := h.sent
          short := h.short
          bounded := h.bounded.popOutput len
          ended := h.ended }

/-- A receiver whose stream has ended has seen the FIN, so the sender's input
has ended. -/
theorem EndLinked.inputEnded
    (h : EndLinked s) (hends : s.receiver.streamOut.inputEnded = true) :
    s.sender.streamIn.inputEnded = true :=
  h.ended (h.bounded.invariant.ended_of_inputEnded
    (h.bounded.invariant.inputEnded_of_output hends))

/-- A delivery keeps the agreement exactly if it does not end the stream
early. -/
theorem EndLinked.endAgrees_deliver_iff
    (h : EndLinked s) (hagrees : EndAgrees s) {seg : TCPSegment}
    (hmem : seg ∈ s.sender.segmentsOut) :
    EndAgrees { s with receiver := s.receiver.segmentReceived seg } ↔
      ¬ EndsEarly s seg := by
  by_cases htakes : s.receiver.Takes seg
  · have hafter := h.deliver hmem
    obtain ⟨n, -, hcarries⟩ := h.sent seg hmem
    have hrange := h.bounded.inRange hcarries h.short
    have hpush := TCPReceiver.segmentReceived_reassembler htakes
    have hle := hafter.bounded.expectedIndex_le hafter.short
    simp only [hpush] at hle
    have hbefore : s.receiver.streamOut.inputEnded = true →
        s.receiver.reassembler.expectedIndex =
          s.sender.streamIn.written.length := by
      intro hends
      rw [h.bounded.invariant.expectedIndex_eq, (hagrees hends).2,
        ByteStream.bytesWritten_eq_length]
    have hiff := h.bounded.invariant.wellFormed.ends_complete_iff
      (hrange htakes) h.bounded.done hbefore hle
    rw [← hpush] at hiff
    simp only [EndsEarly, htakes, true_and, ByteStream.bytesWritten_eq_length]
    rw [← hiff]
    have hexpected := hafter.bounded.invariant.expectedIndex_eq
    have hlength := s.sender.streamIn.bytesWritten_eq_length
    constructor
    · intro hall hends
      exact hexpected.trans ((hall hends).2.trans hlength)
    · intro hall hends
      refine ⟨hafter.inputEnded hends, ?_⟩
      exact hexpected.symm.trans ((hall hends).trans hlength.symm)
  · refine iff_of_true ?_ fun hearly => htakes hearly.1
    rw [TCPReceiver.segmentReceived_of_not_takes htakes]
    exact hagrees

/-- Once the input has ended, the sender's stream accepts nothing more. -/
theorem step_written_of_ended
    {s : TCPSender} {op : TCPSender.Op}
    (hop : TCPSender.NoWriteAfterEnd s op)
    (hended : s.streamIn.inputEnded = true) :
    (s.step op).streamIn.written = s.streamIn.written := by
  obtain ⟨m, hm, hemits⟩ := TCPSender.step_emits s op
  rw [hemits.written, hm.streamIn]
  rcases op.onStream_written s.streamIn with hsame | ⟨data, rfl, -⟩
  · exact hsame
  · exact absurd (hended.symm.trans hop) (by decide)

theorem EndAgrees.popOutput (h : EndAgrees s) (len : ℕ) :
    EndAgrees { s with receiver := s.receiver.popOutput len } := by
  intro hends
  rw [TCPReceiver.popOutput_streamOut, ByteStream.popOutput_inputEnded]
    at hends
  rw [TCPReceiver.popOutput_streamOut, ByteStream.popOutput_bytesWritten]
  exact h hends

theorem EndLinked.endAgrees_step_iff
    {op : Op} (h : EndLinked s) (hop : ShortStream s op)
    (hagrees : EndAgrees s) :
    EndAgrees (s.step op) ↔ EndsInTime s op := by
  cases op with
  | send op =>
      refine iff_of_true (fun hends => ?_) trivial
      obtain ⟨hended, hfull⟩ := hagrees hends
      refine ⟨(retains_step s.sender op).inputEnded hended, ?_⟩
      rw [ByteStream.bytesWritten_eq_length s.sender.streamIn] at hfull
      rw [ByteStream.bytesWritten_eq_length (s.step _).sender.streamIn,
        System.step, step_written_of_ended hop.1 hended]
      exact hfull
  | deliver i =>
      rcases s.deliver_cases i with ⟨hnone, heq⟩ | ⟨seg, hmem, hget, heq⟩
      · rw [System.step, heq, EndsInTime, hnone]
        refine iff_of_true hagrees fun seg hseg => ?_
        exact absurd hseg (Option.not_mem_none seg)
      · rw [System.step, heq, h.endAgrees_deliver_iff hagrees hmem,
          EndsInTime, hget]
        simp
  | pop len => exact iff_of_true (hagrees.popOutput len) trivial
  | read len => exact iff_of_true (hagrees.popOutput len) trivial

end EndLinked

/-- In every run of a short stream, the end of the inbound stream means at
every moment that all bytes have arrived, exactly if no delivered segment ends
the stream early. -/
theorem endAgrees_iff_endsInTime
    (sendCapacity : ℕ) (retxTimeout : UInt16)
    (fixedIsn : Option WrappingInt32) (randomIsn : UInt32)
    (recvCapacity : ℕ) (hcap : recvCapacity + 2 ^ 32 ≤ 2 ^ 64)
    (ops : List Op)
    (hops : Guarded step ShortStream
      (new sendCapacity retxTimeout fixedIsn randomIsn recvCapacity) ops) :
    (∀ pre, pre <+: ops → EndAgrees (run step
      (new sendCapacity retxTimeout fixedIsn randomIsn recvCapacity) pre)) ↔
      Guarded step EndsInTime
        (new sendCapacity retxTimeout fixedIsn randomIsn recvCapacity)
        ops :=
  forall_prefix_iff_guarded (fun _ _ h hop => EndLinked.step h hop)
    (fun _ _ h hop hagrees => h.endAgrees_step_iff hop hagrees)
    (endLinked_new sendCapacity retxTimeout fixedIsn randomIsn hcap)
    (fun hends => absurd hends Bool.false_ne_true) hops

/-- The segments are sent: the SYN, the bytes `ab`, and the FIN on its own. -/
def sendRun : List Op :=
  [.send .fillWindow, .send (.ackReceived ⟨1⟩ 10), .send (.write [97, 98]),
    .send .fillWindow, .send .endInput, .send .fillWindow]

/-- Delivered in order, the FIN ends the stream after its last byte. -/
theorem endAgrees_in_order :
    Guarded step ShortStream (new 8 1000 (some ⟨0⟩) 0 8)
        (sendRun ++ [.deliver 0, .deliver 1, .deliver 2]) ∧
      ∀ pre, pre <+: sendRun ++ [.deliver 0, .deliver 1, .deliver 2] →
        EndAgrees (run step (new 8 1000 (some ⟨0⟩) 0 8) pre) :=
  ⟨by decide, (endAgrees_iff_endsInTime 8 1000 (some ⟨0⟩) 0 8 (by decide) _
    (by decide)).mpr (by decide)⟩

/-- If the FIN overtakes the bytes, the reader sees the end of an empty
stream. -/
theorem not_endAgrees_fin_overtakes :
    Guarded step ShortStream (new 8 1000 (some ⟨0⟩) 0 8)
        (sendRun ++ [.deliver 0, .deliver 2]) ∧
      ¬ EndAgrees (run step (new 8 1000 (some ⟨0⟩) 0 8)
        (sendRun ++ [.deliver 0, .deliver 2])) := by
  refine ⟨by decide, fun h => ?_⟩
  have hends : (run step (new 8 1000 (some ⟨0⟩) 0 8)
      (sendRun ++ [.deliver 0, .deliver 2])).receiver.streamOut.inputEnded =
        true := by
    decide
  exact absurd (h hends).2 (by decide)

end System

end Sponge
