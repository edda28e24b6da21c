import Mathlib.Data.List.Induction
import Sponge.TCPConnection.Model
import Sponge.TCPReceiver.Invariant
import Sponge.TCPSender.Closing

/-!
# What a connection does with its sender and its receiver

Every operation of a connection is a short run of the sender, after which the
connection moves segments to its own queue and may mark the stream as broken.
So what the runs of a driven sender preserve, the runs of a connection
preserve.
-/

namespace Sponge

namespace TCPSender

/-- The sender with another queue and another error flag. -/
def mute (s : TCPSender) (out : List TCPSegment) (error : Bool) : TCPSender :=
  { s with
    segmentsOut := out
    streamIn := { s.streamIn with error := error } }

section Mute

variable {s : TCPSender} (out : List TCPSegment) (error : Bool)

theorem Tracked.mute (h : Tracked s) : Tracked (s.mute out error) :=
  h.congr rfl rfl rfl rfl rfl

theorem Orderly.mute (h : Orderly s) : Orderly (s.mute out error) where
  segmented :=
    h.segmented.congr (h.segmented.tracked.mute out error) rfl rfl rfl rfl
      rfl rfl fun _ heof => heof
  fresh := h.fresh
  drained := h.drained

end Mute

theorem run_drivenStep_error (s : TCPSender) (ops : List Op) :
    (run drivenStep s ops).streamIn.error = s.streamIn.error := by
  refine run_preserves (P := fun t : TCPSender =>
    t.streamIn.error = s.streamIn.error)
    ?_ rfl ops
  intro t op ht
  rw [drivenStep_error, ht]

end TCPSender

namespace TCPConnection

/-! ## Active and inactive connections -/

section Active

variable {c : TCPConnection}

theorem write_of_inactive (h : c.active = false) (data : Bytes) :
    c.write data = (0, c) := by
  simp only [write, h, Bool.not_false, if_true]

theorem write_of_active (h : c.active = true) (data : Bytes) :
    c.write data =
      ((c.sender.streamIn.write data).1,
        flushBuffer
          { c with sender := c.sender.drivenStep (.write data) }) := by
  simp only [write, h, Bool.not_true, Bool.false_eq_true, if_false]
  rfl

theorem endInputStream_of_inactive (h : c.active = false) :
    c.endInputStream = c := by
  simp only [endInputStream, h, Bool.not_false, if_true]

theorem endInputStream_of_active (h : c.active = true) :
    c.endInputStream =
      flushBuffer { c with sender := c.sender.drivenStep .endInput } := by
  simp only [endInputStream, h, Bool.not_true, Bool.false_eq_true, if_false]
  rfl

/-- The time passes for the connection and for its sender. -/
def clock (c : TCPConnection) (ms : ℕ) : TCPConnection :=
  { c with
    timeSinceLastSegmentReceived := add64 c.timeSinceLastSegmentReceived ms
    sender := c.sender.tick ms }

theorem tick_of_inactive (h : c.active = false) (ms : ℕ) :
    c.tick ms = c := by
  simp only [tick, h, Bool.not_false, if_true]

theorem tick_of_active (h : c.active = true) (ms : ℕ) :
    c.tick ms =
      (if (c.sender.tick ms).consecutiveRetransmissions >
          TCPConfig.maxRetxAttempts
        then (c.clock ms).uncleanShutdown else c.clock ms).flushBuffer := by
  simp only [tick, h, Bool.not_true, Bool.false_eq_true, if_false]
  rfl

theorem segmentReceived_of_inactive
    (h : c.active = false) (seg : TCPSegment) :
    c.segmentReceived seg = c := by
  simp only [segmentReceived, h, Bool.not_false, if_true]

theorem segmentReceived_of_rst
    {seg : TCPSegment} (h : c.active = true) (hrst : seg.header.rst = true) :
    c.segmentReceived seg =
      setErrors { c with timeSinceLastSegmentReceived := 0 } := by
  simp only [segmentReceived, h, Bool.not_true, Bool.false_eq_true, if_false,
    if_pos hrst]

theorem segmentReceived_of_active
    {seg : TCPSegment} (h : c.active = true)
    (hrst : seg.header.rst = false) :
    c.segmentReceived seg =
      handle { c with timeSinceLastSegmentReceived := 0 } seg := by
  simp only [segmentReceived, h, hrst, Bool.not_true, Bool.false_eq_true,
    if_false]

end Active

/-! ## The sender -/

/-- The operations of the sender that an inbound segment causes. -/
def inboundOps (c : TCPConnection) (seg : TCPSegment) :
    List TCPSender.Op :=
  (if seg.header.ack then [.ackReceived seg.header.ackno seg.header.win]
    else []) ++
  (if seg.lengthInSequenceSpace > 0 ∧ c.opens seg then [.fillWindow] else [])

/-- The operations of the sender that an operation of the connection
causes. -/
def senderOps (c : TCPConnection) : Op → List TCPSender.Op
  | .connect => [.fillWindow]
  | .write data => if c.active then [.write data] else []
  | .endInputStream => if c.active then [.endInput] else []
  | .tick ms => if c.active then [.tick ms] else []
  | .segmentReceived seg =>
      if c.active && !seg.header.rst then c.inboundOps seg else []
  | .readInbound _ => []

/-- The operation breaks the connection: the peer resets it, or it is given
up after too many retransmissions. -/
def resets (c : TCPConnection) : Op → Bool
  | .segmentReceived seg => c.active && seg.header.rst
  | .tick ms =>
      c.active && decide ((c.sender.tick ms).consecutiveRetransmissions >
        TCPConfig.maxRetxAttempts)
  | .connect => false
  | .write _ => false
  | .endInputStream => false
  | .readInbound _ => false

section Sender

variable (c : TCPConnection)

theorem moveFront_sender (edit : TCPSegment → TCPSegment) :
    ∃ out, (c.moveFront edit).sender =
      c.sender.mute out c.sender.streamIn.error := by
  unfold moveFront
  split
  · exact ⟨_, rfl⟩
  · exact ⟨c.sender.segmentsOut, rfl⟩

theorem reply_sender (seg : TCPSegment) :
    ∃ out, (c.reply seg).sender =
      (if c.opens seg then c.sender.fillWindow else c.sender).mute out
        (if c.opens seg then c.sender.fillWindow
          else c.sender).streamIn.error := by
  unfold reply
  cases c.opens seg with
  | true =>
      exact moveFront_sender { c with sender := c.sender.fillWindow } _
  | false =>
      exact moveFront_sender
        { c with sender := c.sender.sendEmptySegment } _

theorem notePassiveClose_sender :
    c.notePassiveClose.sender = c.sender := by
  unfold notePassiveClose
  split <;> rfl

theorem ackSender_sender (seg : TCPSegment) :
    (c.ackSender seg).sender =
      run TCPSender.drivenStep c.sender
        (if seg.header.ack then
          [.ackReceived seg.header.ackno seg.header.win] else []) := by
  unfold ackSender
  split
  · rfl
  · rfl

theorem ackSender_opens (seg : TCPSegment) :
    (c.ackSender seg).opens seg = c.opens seg := by
  unfold ackSender
  split
  · rfl
  · rfl

theorem handle_sender (seg : TCPSegment) :
    ∃ out, (c.handle seg).sender =
      (run TCPSender.drivenStep c.sender (c.inboundOps seg)).mute out
        (run TCPSender.drivenStep c.sender
          (c.inboundOps seg)).streamIn.error := by
  have hsender := ackSender_sender
    { c with receiver := c.receiver.segmentReceived seg } seg
  have hopens : (ackSender
      { c with receiver := c.receiver.segmentReceived seg } seg).opens seg =
        c.opens seg := ackSender_opens _ seg
  simp only [handle, notePassiveClose_sender, inboundOps, run_append]
  rw [← hsender]
  by_cases hlen : seg.lengthInSequenceSpace > 0
  · rw [if_pos hlen]
    obtain ⟨out, hreply⟩ := reply_sender
      (ackSender { c with receiver := c.receiver.segmentReceived seg } seg)
      seg
    refine ⟨out, hreply.trans ?_⟩
    rw [hopens]
    by_cases hopen : c.opens seg = true
    · rw [if_pos hopen, if_pos (And.intro hlen hopen)]
      rfl
    · rw [if_neg hopen, if_neg (not_and_of_not_right _ hopen)]
      rfl
  · rw [if_neg hlen, if_neg (not_and_of_not_left _ hlen)]
    exact ⟨[], rfl⟩

theorem uncleanShutdown_sender :
    ∃ out, c.uncleanShutdown.sender = c.sender.mute out true := by
  unfold uncleanShutdown
  by_cases hempty : c.setErrors.sender.segmentsOut.isEmpty = true
  · simp only [if_pos hempty]
    exact moveFront_sender
      { c.setErrors with sender := c.setErrors.sender.sendEmptySegment } _
  · simp only [if_neg hempty]
    exact moveFront_sender c.setErrors _

/-- An operation of the connection is a short run of its sender; besides, it
only moves segments and may set the error flag. -/
theorem step_sender (op : Op) :
    ∃ out, (c.step op).sender =
      (run TCPSender.drivenStep c.sender (c.senderOps op)).mute out
        (c.sender.streamIn.error || c.resets op) := by
  -- as long as nothing is reset, the flag is the one that the run leaves
  have hkeep : ∀ {t : TCPSender} {ops : List TCPSender.Op},
      (∃ out, t = (run TCPSender.drivenStep c.sender ops).mute out
        (run TCPSender.drivenStep c.sender ops).streamIn.error) →
      ∃ out, t = (run TCPSender.drivenStep c.sender ops).mute out
        (c.sender.streamIn.error || false) := by
    intro t ops h
    rw [Bool.or_false, ← TCPSender.run_drivenStep_error c.sender ops]
    exact h
  cases op with
  | connect =>
      apply hkeep
      unfold step connect
      simp only
      split
      · exact ⟨_, rfl⟩
      · exact moveFront_sender { c with sender := c.sender.fillWindow } id
  | write data =>
      rw [step, senderOps]
      cases hactive : c.active with
      | true =>
          rw [write_of_active hactive]
          exact hkeep ⟨[], rfl⟩
      | false =>
          rw [write_of_inactive hactive]
          exact hkeep ⟨_, rfl⟩
  | endInputStream =>
      rw [step, senderOps]
      cases hactive : c.active with
      | true =>
          rw [endInputStream_of_active hactive]
          exact hkeep ⟨[], rfl⟩
      | false =>
          rw [endInputStream_of_inactive hactive]
          exact hkeep ⟨_, rfl⟩
  | tick ms =>
      rw [step, senderOps, resets]
      cases hactive : c.active with
      | true =>
          rw [tick_of_active hactive, Bool.true_and]
          split
          next hgive =>
            obtain ⟨out, h⟩ := uncleanShutdown_sender (c.clock ms)
            refine ⟨[], ?_⟩
            rw [flushBuffer, h, decide_eq_true hgive, Bool.or_true]
            rfl
          next hkeepGoing =>
            rw [decide_eq_false hkeepGoing]
            exact hkeep ⟨[], rfl⟩
      | false =>
          rw [tick_of_inactive hactive]
          exact hkeep ⟨_, rfl⟩
  | segmentReceived seg =>
      rw [step, senderOps, resets]
      cases hactive : c.active with
      | true =>
          cases hrst : seg.header.rst with
          | true =>
              rw [segmentReceived_of_rst hactive hrst, Bool.and_true,
                Bool.or_true]
              exact ⟨_, rfl⟩
          | false =>
              rw [segmentReceived_of_active hactive hrst]
              exact hkeep (handle_sender _ seg)
      | false =>
          rw [segmentReceived_of_inactive hactive]
          exact hkeep ⟨_, rfl⟩
  | readInbound len => exact hkeep ⟨_, rfl⟩

/-- What a driven sender preserves under a condition on its operations, a
connection preserves under that condition on the operations it causes. -/
theorem step_sender_invariant
    {P : TCPSender → Prop} {ok : TCPSender → TCPSender.Op → Prop}
    (hmute : ∀ s out error, P s → P (s.mute out error))
    (hstep : ∀ s op, P s → ok s op → P (s.drivenStep op))
    {op : Op} (h : P c.sender)
    (hops : Guarded TCPSender.drivenStep ok c.sender (c.senderOps op)) :
    P (c.step op).sender := by
  obtain ⟨out, heq⟩ := c.step_sender op
  rw [heq]
  exact hmute _ _ _ (run_invariant hstep h hops)

/-- The condition on the operations of the sender concerns the bytes that are
written and the acknowledgments that are received. -/
theorem guarded_senderOps
    {ok : TCPSender → TCPSender.Op → Prop} {op : Op}
    (hfill : ∀ s, ok s .fillWindow) (htick : ∀ s ms, ok s (.tick ms))
    (hend : op = .endInputStream → c.active = true → ok c.sender .endInput)
    (hwrite : ∀ data, op = .write data → c.active = true →
      ok c.sender (.write data))
    (hack : ∀ seg, op = .segmentReceived seg → c.active = true →
      seg.header.rst = false → seg.header.ack = true →
      ok c.sender (.ackReceived seg.header.ackno seg.header.win)) :
    Guarded TCPSender.drivenStep ok c.sender (c.senderOps op) := by
  cases op with
  | connect => exact ⟨hfill _, trivial⟩
  | write data =>
      rw [senderOps]
      split
      next hactive => exact ⟨hwrite data rfl hactive, trivial⟩
      · trivial
  | endInputStream =>
      rw [senderOps]
      split
      next hactive => exact ⟨hend rfl hactive, trivial⟩
      · trivial
  | tick ms =>
      rw [senderOps]
      split
      · exact ⟨htick _ _, trivial⟩
      · trivial
  | segmentReceived seg =>
      rw [senderOps]
      split
      next hhandled =>
        rw [Bool.and_eq_true, Bool.not_eq_true'] at hhandled
        rw [inboundOps, guarded_append]
        constructor
        · split
          next hseg =>
            exact ⟨hack seg rfl hhandled.1 hhandled.2 hseg, trivial⟩
          · trivial
        · generalize run TCPSender.drivenStep c.sender _ = s
          split
          · exact ⟨hfill s, trivial⟩
          · trivial
      · trivial
  | readInbound len => trivial

end Sender

/-! ## The receiver -/

section Receiver

variable (c : TCPConnection)

theorem moveFront_receiver (edit : TCPSegment → TCPSegment) :
    (c.moveFront edit).receiver = c.receiver := by
  unfold moveFront
  split <;> rfl

theorem reply_receiver (seg : TCPSegment) :
    (c.reply seg).receiver = c.receiver := by
  unfold reply
  cases c.opens seg with
  | true =>
      exact moveFront_receiver { c with sender := c.sender.fillWindow } _
  | false =>
      exact moveFront_receiver
        { c with sender := c.sender.sendEmptySegment } _

theorem notePassiveClose_receiver :
    c.notePassiveClose.receiver = c.receiver := by
  unfold notePassiveClose
  split <;> rfl

theorem ackSender_receiver (seg : TCPSegment) :
    (c.ackSender seg).receiver = c.receiver := by
  unfold ackSender
  split <;> rfl

theorem handle_receiver (seg : TCPSegment) :
    (c.handle seg).receiver = c.receiver.segmentReceived seg := by
  simp only [handle, notePassiveClose_receiver]
  split
  · rw [reply_receiver, ackSender_receiver]
  · rw [flushBuffer, ackSender_receiver]

theorem uncleanShutdown_receiver :
    c.uncleanShutdown.receiver = c.receiver.setError := by
  unfold uncleanShutdown
  simp only [moveFront_receiver]
  split <;> rfl

theorem connect_receiver : c.connect.receiver = c.receiver := by
  unfold connect
  simp only
  split
  · rfl
  · exact moveFront_receiver { c with sender := c.sender.fillWindow } id

/-- What an operation of the connection does with the receiver. -/
theorem step_receiver (op : Op) :
    (c.resets op = true ∧ (c.step op).receiver = c.receiver.setError) ∨
      (c.resets op = false ∧
        ((c.step op).receiver = c.receiver ∨
          (∃ len, (c.step op).receiver = c.receiver.popOutput len) ∨
          ∃ seg, (c.step op).receiver = c.receiver.segmentReceived seg)) := by
  cases op with
  | connect =>
      exact Or.inr ⟨rfl, Or.inl c.connect_receiver⟩
  | write data =>
      refine Or.inr ⟨rfl, Or.inl ?_⟩
      rw [step]
      cases hactive : c.active with
      | true => rw [write_of_active hactive]; rfl
      | false => rw [write_of_inactive hactive]
  | endInputStream =>
      refine Or.inr ⟨rfl, Or.inl ?_⟩
      rw [step]
      cases hactive : c.active with
      | true => rw [endInputStream_of_active hactive]; rfl
      | false => rw [endInputStream_of_inactive hactive]
  | tick ms =>
      rw [step, resets]
      cases hactive : c.active with
      | true =>
          rw [tick_of_active hactive, Bool.true_and]
          split
          next hgive =>
            refine Or.inl ⟨decide_eq_true hgive, ?_⟩
            rw [flushBuffer, uncleanShutdown_receiver]
            rfl
          next hgoOn =>
            exact Or.inr ⟨decide_eq_false hgoOn, Or.inl rfl⟩
      | false =>
          rw [tick_of_inactive hactive]
          exact Or.inr ⟨rfl, Or.inl rfl⟩
  | segmentReceived seg =>
      rw [step, resets]
      cases hactive : c.active with
      | true =>
          cases hrst : seg.header.rst with
          | true =>
              rw [segmentReceived_of_rst hactive hrst]
              exact Or.inl ⟨rfl, rfl⟩
          | false =>
              rw [segmentReceived_of_active hactive hrst, handle_receiver]
              exact Or.inr ⟨rfl, Or.inr (Or.inr ⟨seg, rfl⟩)⟩
      | false =>
          rw [segmentReceived_of_inactive hactive]
          exact Or.inr ⟨rfl, Or.inl rfl⟩
  | readInbound len => exact Or.inr ⟨rfl, Or.inr (Or.inl ⟨len, rfl⟩)⟩

end Receiver

/-! ## The error flags -/

section Errors

variable (c : TCPConnection) (op : Op)

theorem step_sender_error :
    (c.step op).sender.streamIn.error =
      (c.sender.streamIn.error || c.resets op) := by
  obtain ⟨out, heq⟩ := c.step_sender op
  rw [heq]
  rfl

theorem step_receiver_error :
    (c.step op).receiver.streamOut.error =
      (c.receiver.streamOut.error || c.resets op) := by
  rcases c.step_receiver op with
    ⟨hreset, heq⟩ | ⟨hno, heq | ⟨len, heq⟩ | ⟨seg, heq⟩⟩
  · rw [heq, hreset, Bool.or_true]
    rfl
  · rw [heq, hno, Bool.or_false]
  · rw [heq, hno, Bool.or_false, TCPReceiver.popOutput_streamOut,
      ByteStream.popOutput_error]
  · rw [heq, hno, Bool.or_false, TCPReceiver.segmentReceived_error]

end Errors

/-- Some operation of the run breaks the connection. -/
def WasReset (start : TCPConnection) (ops : List Op) : Prop :=
  ∃ pre op, pre ++ [op] <+: ops ∧ (run step start pre).resets op = true

/-- The error flag tells that the connection was broken. -/
theorem wasReset_of_error
    {start : TCPConnection} (hstart : start.sender.streamIn.error = false)
    {ops : List Op}
    (h : (run step start ops).sender.streamIn.error = true) :
    WasReset start ops := by
  induction ops using List.reverseRecOn with
  | nil => exact absurd (hstart.symm.trans h) (by decide)
  | append_singleton pre op ih =>
      rw [run_concat, step_sender_error, Bool.or_eq_true] at h
      rcases h with hbefore | hnow
      · obtain ⟨pre', op', hpre, hreset⟩ := ih hbefore
        exact ⟨pre', op', hpre.trans (List.prefix_append _ _), hreset⟩
      · exact ⟨pre, op, List.prefix_rfl, hnow⟩

end TCPConnection

end Sponge
