import Sponge.TCPConnection.Inactive

/-!
# The acknowledgments of outbound segments

Segments reach the outbound queue on four ways: as the reply to an inbound
segment, when the queue of the sender is flushed, by `connect`, and when the
connection is given up.  The first two complete the header with what the
receiver says at that moment, the third is used before the peer has been
heard, and the last sets the RST flag.

Within one operation the receiver changes before the first segment is queued,
so the receiver at the moment of a push is the one that the operation leaves.
-/

namespace Sponge

namespace TCPConnection

/-! ## Headers that agree with the receiver -/

/-- If the receiver has an acknowledgment number, the header carries it,
together with the window. -/
def UpToDate (r : TCPReceiver) (seg : TCPSegment) : Prop :=
  ∀ ackno, r.ackno = some ackno →
    seg.header.ack = true ∧ seg.header.ackno = ackno ∧
      seg.header.win.toNat = min r.windowSize 65535

/-- From `c` to `c'` segments were queued, and those without the RST flag
agree with the receiver `r`. -/
def Answers (r : TCPReceiver) (c c' : TCPConnection) : Prop :=
  ∃ pushed, c'.segmentsOut = c.segmentsOut ++ pushed ∧
    ∀ seg ∈ pushed, seg.header.rst = false → UpToDate r seg

section Answers

variable {r : TCPReceiver} {c c' c'' : TCPConnection}

theorem answers_of_segmentsOut_eq
    (h : c'.segmentsOut = c.segmentsOut) : Answers r c c' :=
  ⟨[], by rw [h, List.append_nil],
    fun _ hmem => absurd hmem List.not_mem_nil⟩

theorem Answers.trans
    (h : Answers r c c') (h' : Answers r c' c'') : Answers r c c'' := by
  obtain ⟨pushed, hout, hpushed⟩ := h
  obtain ⟨pushed', hout', hpushed'⟩ := h'
  refine ⟨pushed ++ pushed', ?_,
    List.forall_mem_append.mpr ⟨hpushed, hpushed'⟩⟩
  rw [hout', hout, List.append_assoc]

theorem advertisedWindow_toNat (c : TCPConnection) :
    c.advertisedWindow.toNat = min c.receiver.windowSize 65535 := by
  unfold advertisedWindow
  split
  next hlarge =>
    rw [min_eq_right hlarge.le]
    rfl
  next hsmall =>
    have hle := not_lt.mp hsmall
    rw [min_eq_left hle, UInt16.toNat_ofNat']
    exact Nat.mod_eq_of_lt (by omega)

theorem upToDate_acknowledge (c : TCPConnection) (seg : TCPSegment) :
    UpToDate c.receiver (c.acknowledge seg) := by
  intro ackno hackno
  rw [acknowledge, hackno]
  exact ⟨rfl, rfl, c.advertisedWindow_toNat⟩

theorem answers_flushBuffer (c : TCPConnection) :
    Answers c.receiver c c.flushBuffer := by
  refine ⟨_, rfl, fun seg hmem _ => ?_⟩
  obtain ⟨queued, -, rfl⟩ := List.mem_map.mp hmem
  exact c.upToDate_acknowledge queued

/-- Moving the first segment of the sender answers if the edited segment
does. -/
theorem answers_moveFront
    {edit : TCPSegment → TCPSegment}
    (h : ∀ seg, (edit seg).header.rst = false → UpToDate r (edit seg)) :
    Answers r c (c.moveFront edit) := by
  unfold moveFront
  split
  · exact ⟨_, rfl, List.forall_mem_singleton.mpr (h _)⟩
  · exact answers_of_segmentsOut_eq rfl

end Answers

/-! ## The operations -/

section Step

variable (c : TCPConnection)

theorem answers_reply (seg : TCPSegment) :
    Answers c.receiver c (c.reply seg) := by
  have hedit : ∀ (d : TCPConnection), d.receiver = c.receiver →
      ∀ ackSeg : TCPSegment, UpToDate c.receiver
        { d.noteAckno ackSeg with
          header :=
            { (d.noteAckno ackSeg).header with
              ack := true
              win := d.advertisedWindow } } := by
    intro d hd ackSeg ackno hackno
    rw [← hd] at hackno ⊢
    refine ⟨rfl, ?_, d.advertisedWindow_toNat⟩
    rw [noteAckno, hackno]
  unfold reply
  cases c.opens seg with
  | true =>
      exact answers_moveFront (c := { c with sender := c.sender.fillWindow })
        fun ackSeg _ => hedit _ rfl ackSeg
  | false =>
      exact answers_moveFront
        (c := { c with sender := c.sender.sendEmptySegment })
        fun ackSeg _ => hedit _ rfl ackSeg

theorem ackSender_segmentsOut (seg : TCPSegment) :
    (c.ackSender seg).segmentsOut = c.segmentsOut := by
  unfold ackSender
  split <;> rfl

theorem notePassiveClose_segmentsOut :
    c.notePassiveClose.segmentsOut = c.segmentsOut := by
  unfold notePassiveClose
  split <;> rfl

theorem answers_handle (seg : TCPSegment) :
    Answers (c.receiver.segmentReceived seg) c (c.handle seg) := by
  have hack : Answers (c.receiver.segmentReceived seg) c
      (ackSender { c with receiver := c.receiver.segmentReceived seg } seg) :=
    answers_of_segmentsOut_eq (ackSender_segmentsOut _ seg)
  have hreceiver := ackSender_receiver
    { c with receiver := c.receiver.segmentReceived seg } seg
  rw [handle]
  refine Answers.trans ?_
    (answers_of_segmentsOut_eq (notePassiveClose_segmentsOut _))
  split
  · have hreply := answers_reply
      (ackSender { c with receiver := c.receiver.segmentReceived seg } seg)
      seg
    rw [hreceiver] at hreply
    exact hack.trans hreply
  · have hflush := answers_flushBuffer
      (ackSender { c with receiver := c.receiver.segmentReceived seg } seg)
    rw [hreceiver] at hflush
    exact hack.trans hflush

theorem answers_uncleanShutdown (r : TCPReceiver) :
    Answers r c c.uncleanShutdown := by
  have hedit : ∀ (d : TCPConnection) (seg : TCPSegment),
      ({ d.noteAckno seg with
        header := { (d.noteAckno seg).header with rst := true } } :
          TCPSegment).header.rst = false → False :=
    fun _ _ hrst => absurd hrst.symm Bool.false_ne_true
  unfold uncleanShutdown
  by_cases hempty : c.setErrors.sender.segmentsOut.isEmpty = true
  · simp only [if_pos hempty]
    exact answers_moveFront
      (c := { c.setErrors with
        sender := c.setErrors.sender.sendEmptySegment })
      fun seg hrst => (hedit _ seg hrst).elim
  · simp only [if_neg hempty]
    exact answers_moveFront (c := c.setErrors)
      fun seg hrst => (hedit _ seg hrst).elim

theorem answers_tick (ms : ℕ) :
    Answers (c.tick ms).receiver c (c.tick ms) := by
  cases hactive : c.active with
  | true =>
      rw [tick_of_active hactive]
      split
      · exact (answers_uncleanShutdown (c.clock ms) _).trans
          (answers_flushBuffer _)
      · exact answers_flushBuffer (c.clock ms)
  | false =>
      rw [tick_of_inactive hactive]
      exact answers_of_segmentsOut_eq rfl

/-- Every operation but `connect` queues segments that agree with the
receiver it leaves. -/
theorem answers_step {op : Op} (hop : op ≠ .connect) :
    Answers (c.step op).receiver c (c.step op) := by
  cases op with
  | connect => exact absurd rfl hop
  | write data =>
      rw [step]
      cases hactive : c.active with
      | true =>
          rw [write_of_active hactive]
          exact answers_flushBuffer
            { c with sender := c.sender.drivenStep (.write data) }
      | false =>
          rw [write_of_inactive hactive]
          exact answers_of_segmentsOut_eq rfl
  | endInputStream =>
      rw [step]
      cases hactive : c.active with
      | true =>
          rw [endInputStream_of_active hactive]
          exact answers_flushBuffer
            { c with sender := c.sender.drivenStep .endInput }
      | false =>
          rw [endInputStream_of_inactive hactive]
          exact answers_of_segmentsOut_eq rfl
  | tick ms => exact c.answers_tick ms
  | segmentReceived seg =>
      rw [step]
      cases hactive : c.active with
      | true =>
          cases hrst : seg.header.rst with
          | true =>
              rw [segmentReceived_of_rst hactive hrst]
              exact answers_of_segmentsOut_eq rfl
          | false =>
              rw [segmentReceived_of_active hactive hrst, handle_receiver]
              exact answers_handle
                { c with timeSinceLastSegmentReceived := 0 } seg
      | false =>
          rw [segmentReceived_of_inactive hactive]
          exact answers_of_segmentsOut_eq rfl
  | readInbound len => exact answers_of_segmentsOut_eq rfl

/-- `connect` queues segments as the sender has made them, which agrees with a
receiver that has not heard the peer. -/
theorem answers_connect (h : c.receiver.ackno = none) :
    Answers (c.step .connect).receiver c (c.step .connect) := by
  have hsilent : ∀ seg, UpToDate c.receiver seg := by
    intro seg ackno hackno
    exact absurd (h.symm.trans hackno) (Option.some_ne_none ackno).symm
  rw [step, connect_receiver, connect]
  simp only
  split
  · exact answers_of_segmentsOut_eq rfl
  · exact answers_moveFront (c := { c with sender := c.sender.fillWindow })
      fun seg _ => hsilent seg

end Step

/-! ## The window -/

/-- The receiver and its inbound stream have the same capacity. -/
def CapacityAgrees (capacity : ℕ) (r : TCPReceiver) : Prop :=
  r.capacity = capacity ∧ r.streamOut.cap = capacity

section CapacityAgrees

variable {capacity : ℕ} {r : TCPReceiver}

theorem CapacityAgrees.segmentReceived
    (h : CapacityAgrees capacity r) (seg : TCPSegment) :
    CapacityAgrees capacity (r.segmentReceived seg) := by
  refine ⟨(TCPReceiver.segmentReceived_capacity r seg).trans h.1, ?_⟩
  by_cases htakes : r.Takes seg
  · rw [TCPReceiver.streamOut, TCPReceiver.segmentReceived_reassembler htakes,
      StreamReassembler.pushSubstring_cap]
    exact h.2
  · rw [TCPReceiver.segmentReceived_of_not_takes htakes]
    exact h.2

theorem CapacityAgrees.popOutput
    (h : CapacityAgrees capacity r) (len : ℕ) :
    CapacityAgrees capacity (r.popOutput len) := by
  refine ⟨h.1, ?_⟩
  rw [TCPReceiver.popOutput_streamOut, ByteStream.popOutput_cap]
  exact h.2

theorem CapacityAgrees.step
    {c : TCPConnection} (h : CapacityAgrees capacity c.receiver) (op : Op) :
    CapacityAgrees capacity (c.step op).receiver := by
  rcases c.step_receiver op with
    ⟨-, heq⟩ | ⟨-, heq | ⟨len, heq⟩ | ⟨seg, heq⟩⟩
  · rw [heq]
    exact h
  · rw [heq]
    exact h
  · rw [heq]
    exact h.popOutput len
  · rw [heq]
    exact h.segmentReceived seg

/-- The window does not underflow. -/
theorem CapacityAgrees.bufferSize_le
    (h : CapacityAgrees capacity r) : r.streamOut.bufferSize ≤ capacity := by
  have hsize := r.streamOut.size_le
  rw [h.2] at hsize
  exact hsize

end CapacityAgrees

/-! ## Runs -/

/-- `connect` is the first operation or is not called. -/
def ConnectFirst (ops : List Op) : Prop :=
  ∀ op ∈ ops.tail, op ≠ .connect

instance connectFirstDecidable (ops : List Op) :
    Decidable (ConnectFirst ops) :=
  inferInstanceAs (Decidable (∀ op ∈ ops.tail, op ≠ .connect))

/-- In every run in which `connect` comes first, all segments that are queued
without the RST flag agree with the receiver, and the inbound stream never
holds more than the capacity of the receiver. -/
theorem queued_upToDate
    (cfg : TCPConfig) (randomIsn : UInt32) (ops : List Op)
    (hops : ConnectFirst ops) :
    (∀ pre op, pre ++ [op] <+: ops →
      let c := run step (new cfg randomIsn) pre
      Answers (c.step op).receiver c (c.step op)) ∧
    ∀ pre, pre <+: ops →
      let c := run step (new cfg randomIsn) pre
      c.receiver.capacity = cfg.recvCapacity ∧
        c.receiver.streamOut.bufferSize ≤ cfg.recvCapacity := by
  constructor
  · rintro pre op ⟨rest, rfl⟩ c
    by_cases hconnect : op = .connect
    · have hfirst : pre = [] := by
        cases pre with
        | nil => rfl
        | cons first pre =>
            refine absurd hconnect (hops op ?_)
            simp
      subst hconnect hfirst
      exact answers_connect c rfl
    · exact c.answers_step hconnect
  · intro pre _ c
    have hcap : CapacityAgrees cfg.recvCapacity c.receiver :=
      run_preserves (P := fun d : TCPConnection =>
        CapacityAgrees cfg.recvCapacity d.receiver)
        (fun _ op h => h.step op) ⟨rfl, rfl⟩ pre
    exact ⟨hcap.1, hcap.bufferSize_le⟩

/-- The SYN is sent twice, and the peer's SYN arrives in between. -/
def simultaneousOpenRun : List Op :=
  [.connect,
    .segmentReceived { header := { syn := true, seqno := ⟨5⟩, win := 10 } },
    .tick 1000]

theorem queued_upToDate_simultaneousOpen :
    ConnectFirst simultaneousOpenRun ∧
      let c := run step (new smallConfig 0) (simultaneousOpenRun.take 2)
      Answers (c.step (.tick 1000)).receiver c (c.step (.tick 1000)) :=
  ⟨by decide, (queued_upToDate smallConfig 0 simultaneousOpenRun
    (by decide)).1 (simultaneousOpenRun.take 2) (.tick 1000)
      List.prefix_rfl⟩

/-- The retransmitted SYN acknowledges the SYN of the peer. -/
example :
    ((run step (new smallConfig 0) simultaneousOpenRun).segmentsOut.getLast?.map
      fun seg => (seg.header.syn, seg.header.ack, seg.header.ackno)) =
        some (true, true, ⟨6⟩) := by
  decide

end TCPConnection

end Sponge
