import Sponge.TCPConnection.Replies

/-!
# The streams and the queue of a connection

What the operations of a connection do to what its owner sees: the bytes that
were written to the outbound stream, the bytes that were taken from the inbound
one, and the segments on the queue.
-/

namespace Sponge

namespace TCPSender

/-- Only a write adds to the stream. -/
theorem drivenStep_written (s : TCPSender) {op : Op}
    (hop : ∀ data, op ≠ .write data) :
    (s.drivenStep op).streamIn.written = s.streamIn.written := by
  obtain ⟨m, hm, hemits⟩ := drivenStep_emits s op
  rw [hemits.written, hm.streamIn]
  rcases op.onStream_written s.streamIn with hsame | ⟨data, heq, -⟩
  · exact hsame
  · exact absurd heq (hop data)

end TCPSender

namespace TCPReceiver

/-- A segment is not the reader's business. -/
theorem segmentReceived_popped (r : TCPReceiver) (seg : TCPSegment) :
    (r.segmentReceived seg).streamOut.popped = r.streamOut.popped := by
  by_cases h : r.Takes seg
  · rw [streamOut, segmentReceived_reassembler h]
    exact (StreamReassembler.pushSubstring_writerOnly _ _ _ _).popped
  · rw [segmentReceived_of_not_takes h]

end TCPReceiver

namespace TCPConnection

section Step

variable {c : TCPConnection} {op : Op}

/-! ## The outbound stream -/

theorem step_written (hop : ∀ data, op ≠ .write data) :
    (c.step op).sender.streamIn.written = c.sender.streamIn.written := by
  refine c.step_sender_invariant
    (P := fun s => s.streamIn.written = c.sender.streamIn.written)
    (fun _ _ _ h => h)
    (fun s op' h hop' => (s.drivenStep_written hop').trans h) rfl
    (guarded_senderOps c ?_ ?_ ?_ ?_ ?_)
  · exact fun _ _ => by simp
  · exact fun _ _ _ => by simp
  · exact fun _ _ _ => by simp
  · exact fun data hdata => absurd hdata (hop data)
  · exact fun _ _ _ _ _ _ => by simp

/-- The outbound stream ends only by the owner's word. -/
theorem inputEnded_of_step
    (hended : (c.step op).sender.streamIn.inputEnded = true) :
    c.sender.streamIn.inputEnded = true ∨ op = .endInputStream := by
  by_contra hnot
  obtain ⟨hbefore, hop⟩ := not_or.mp hnot
  refine absurd hended ?_
  refine @step_sender_invariant c (fun s => ¬ s.streamIn.inputEnded = true)
    (fun _ op' => op' ≠ .endInput) (fun _ _ _ h => h) ?_ op hbefore
    (guarded_senderOps c ?_ ?_ ?_ ?_ ?_)
  · intro s op' h hop' hnow
    rcases (s.drivenStep_inputEnded op').mp hnow with hs | hend
    · exact h hs
    · exact hop' hend
  · exact fun _ => by simp
  · exact fun _ _ => by simp
  · exact fun heq => absurd heq hop
  · exact fun _ _ _ => by simp
  · exact fun _ _ _ _ _ => by simp

/-- An active connection accepts what fits into its stream, an inactive one
accepts nothing. -/
theorem write_accepts (c : TCPConnection) {data : Bytes}
    (hfits : data.length ≤ c.remainingOutboundCapacity) :
    (c.write data).1 = (if c.active then data.length else 0) ∧
      (c.write data).2.sender.streamIn.written =
        c.sender.streamIn.written ++ if c.active then data else [] := by
  cases hactive : c.active with
  | false =>
      rw [write_of_inactive hactive]
      exact ⟨rfl, (List.append_nil _).symm⟩
  | true =>
      have hall : (c.sender.streamIn.write data).1 = data.length := by
        rw [ByteStream.write_fst]
        exact Nat.min_eq_left hfits
      rw [write_of_active hactive]
      refine ⟨hall, ?_⟩
      change (c.sender.drivenStep (.write data)).streamIn.written = _
      obtain ⟨m, hm, hemits⟩ := TCPSender.drivenStep_emits c.sender
        (.write data)
      rw [hemits.written, hm.streamIn]
      change (c.sender.streamIn.write data).2.written = _
      rw [ByteStream.write_written, hall, List.take_length, if_pos rfl]

/-! ## The inbound stream -/

/-- What holds of the receiver and is kept by an error, a read and the receipt
of the segment is kept by the operation. -/
theorem step_receiver_rule
    {P : TCPReceiver → Prop} (h : P c.receiver)
    (herror : P c.receiver.setError)
    (hpop : ∀ len, op = .readInbound len → P (c.receiver.popOutput len))
    (hseg : ∀ seg, op = .segmentReceived seg → c.active = true →
      seg.header.rst = false → P (c.receiver.segmentReceived seg)) :
    P (c.step op).receiver := by
  cases op with
  | connect =>
      rw [step, connect_receiver]
      exact h
  | write data =>
      rw [step]
      cases hactive : c.active with
      | true =>
          rw [write_of_active hactive]
          exact h
      | false =>
          rw [write_of_inactive hactive]
          exact h
  | endInputStream =>
      rw [step]
      cases hactive : c.active with
      | true =>
          rw [endInputStream_of_active hactive]
          exact h
      | false =>
          rw [endInputStream_of_inactive hactive]
          exact h
  | tick ms =>
      rcases c.step_receiver (.tick ms) with
        ⟨-, heq⟩ | ⟨hno, -⟩
      · rw [heq]
        exact herror
      · rw [step]
        cases hactive : c.active with
        | true =>
            rw [resets, hactive, Bool.true_and, decide_eq_false_iff_not] at hno
            rw [tick_of_active hactive, if_neg hno]
            exact h
        | false =>
            rw [tick_of_inactive hactive]
            exact h
  | segmentReceived seg =>
      rw [step]
      cases hactive : c.active with
      | true =>
          cases hrst : seg.header.rst with
          | true =>
              rw [segmentReceived_of_rst hactive hrst]
              exact herror
          | false =>
              rw [segmentReceived_of_active hactive hrst, handle_receiver]
              exact hseg seg rfl hactive hrst
      | false =>
          rw [segmentReceived_of_inactive hactive]
          exact h
  | readInbound len => exact hpop len rfl

/-- Only the reader takes bytes from the inbound stream. -/
theorem step_popped (hop : ∀ len, op ≠ .readInbound len) :
    (c.step op).inboundStream.popped = c.inboundStream.popped :=
  step_receiver_rule
    (P := fun r => r.streamOut.popped = c.inboundStream.popped) rfl rfl
    (fun len hread => absurd hread (hop len))
    (fun seg _ _ _ => c.receiver.segmentReceived_popped seg)

theorem readInbound_popped (c : TCPConnection) (len : ℕ) :
    (c.readInbound len).inboundStream.popped =
      c.inboundStream.popped ++ c.inboundStream.peekOutput len :=
  c.inboundStream.popOutput_popped len

/-! ## The queue -/

theorem segmentsOut_prefix_moveFront
    (c : TCPConnection) (edit : TCPSegment → TCPSegment) :
    c.segmentsOut <+: (c.moveFront edit).segmentsOut := by
  unfold moveFront
  split
  · exact List.prefix_append _ _
  · exact List.prefix_rfl

/-- Segments are only added to the queue. -/
theorem segmentsOut_prefix_step (c : TCPConnection) (op : Op) :
    c.segmentsOut <+: (c.step op).segmentsOut := by
  by_cases hop : op = .connect
  · subst hop
    rw [step, connect]
    simp only
    split
    · exact List.prefix_rfl
    · exact segmentsOut_prefix_moveFront
        { c with sender := c.sender.fillWindow } id
  · obtain ⟨pushed, hout, -⟩ := answers_step (c := c) hop
    rw [hout]
    exact List.prefix_append _ _

end Step

end TCPConnection

end Sponge
