import Sponge.TCPConnection.Replies
import Sponge.TCPSender.Backlog

/-!
# The reply to a segment that occupies a sequence number

A segment that occupies a sequence number is answered with the first segment
in the queue of the sender; for this purpose an empty segment is queued, or,
when the peer opens the connection, `fill_window` is called.  Everything else
that the sender has queued stays there until the next operation flushes it,
and if `fill_window` has nothing to send there is no answer.
-/

namespace Sponge

namespace TCPConnection

/-! ## What a reply does to the two queues -/

section Reply

variable (c : TCPConnection) (seg : TCPSegment)

theorem moveFront_queue (edit : TCPSegment → TCPSegment) :
    (c.moveFront edit).sender.segmentsOut = c.sender.segmentsOut.tail := by
  unfold moveFront
  split
  next hqueue => rw [hqueue, List.tail_cons]
  next hqueue => rw [hqueue, List.tail_nil]

theorem moveFront_pushed (edit : TCPSegment → TCPSegment) :
    (c.moveFront edit).segmentsOut =
      c.segmentsOut ++ (c.sender.segmentsOut.head?.map edit).toList := by
  unfold moveFront
  split
  next hqueue => rw [hqueue]; rfl
  next hqueue => rw [hqueue]; exact (List.append_nil _).symm

/-- The sender once it has queued what is to be the answer. -/
def answering : TCPSender :=
  if c.opens seg then c.sender.fillWindow else c.sender.sendEmptySegment

/-- The header of an answer. -/
def completed (ackSeg : TCPSegment) : TCPSegment :=
  { c.noteAckno ackSeg with
    header :=
      { (c.noteAckno ackSeg).header with
        ack := true
        win := c.advertisedWindow } }

theorem reply_eq :
    c.reply seg =
      moveFront { c with sender := c.answering seg } c.completed := by
  unfold reply answering
  cases c.opens seg with
  | true => rfl
  | false => rfl

theorem completed_ackno
    {ackno : WrappingInt32} (h : c.receiver.ackno = some ackno)
    (ackSeg : TCPSegment) :
    (c.completed ackSeg).header.ack = true ∧
      (c.completed ackSeg).header.ackno = ackno := by
  refine ⟨rfl, ?_⟩
  rw [completed, noteAckno, h]

/-- The connection when the receiver and the sender have seen the segment. -/
def informed : TCPConnection :=
  ackSender { c with receiver := c.receiver.segmentReceived seg } seg

theorem informed_sender :
    (c.informed seg).sender =
      if seg.header.ack then
        c.sender.ackReceived seg.header.ackno seg.header.win
      else c.sender := by
  unfold informed ackSender
  split
  · rfl
  · rfl

theorem informed_opens : (c.informed seg).opens seg = c.opens seg :=
  ackSender_opens _ seg

theorem informed_receiver :
    (c.informed seg).receiver = c.receiver.segmentReceived seg :=
  ackSender_receiver _ seg

theorem informed_segmentsOut :
    (c.informed seg).segmentsOut = c.segmentsOut :=
  ackSender_segmentsOut _ seg

theorem handle_of_occupies (h : seg.lengthInSequenceSpace > 0) :
    c.handle seg = ((c.informed seg).reply seg).notePassiveClose := by
  simp only [handle, if_pos h]
  rfl

theorem handle_pushed (h : seg.lengthInSequenceSpace > 0) :
    (c.handle seg).segmentsOut = c.segmentsOut ++
      (((c.informed seg).answering seg).segmentsOut.head?.map
        (c.informed seg).completed).toList := by
  rw [handle_of_occupies c seg h, notePassiveClose_segmentsOut, reply_eq,
    moveFront_pushed, informed_segmentsOut]

theorem handle_of_not_occupies (h : ¬ seg.lengthInSequenceSpace > 0) :
    c.handle seg = (c.informed seg).flushBuffer.notePassiveClose := by
  simp only [handle, if_neg h]
  rfl

end Reply

section Queue

variable {c : TCPConnection} {seg : TCPSegment}

/-- A segment that opens the connection carries no acknowledgment. -/
theorem ack_of_opens (h : c.opens seg = true) : seg.header.ack = false := by
  rw [opens, Bool.and_eq_true, Bool.and_eq_true, Bool.not_eq_true'] at h
  exact h.1.2

/-- `fill_window` at a sender with an empty queue queues at most the SYN. -/
theorem fillWindow_tail
    {s : TCPSender} (h : s.Filled) (hqueue : s.segmentsOut = []) :
    s.fillWindow.segmentsOut.tail = [] := by
  cases hsyn : s.syn with
  | false =>
      have he := TCPSender.emission_syn hsyn
      rw [← TCPSender.fillWindow_of_not_syn hsyn] at he
      rw [he.segmentsOut, hqueue]
      rfl
  | true =>
      rw [TCPSender.fillWindow_of_drained hsyn (h.drained hsyn), hqueue]
      rfl

/-- With an empty queue, the answer leaves something behind exactly if the
acknowledgment has let the sender send. -/
theorem handle_queue_iff
    (h : c.sender.Filled) (hqueue : c.sender.segmentsOut = []) :
    (c.handle seg).sender.segmentsOut = [] ↔
      ¬ (seg.lengthInSequenceSpace > 0 ∧ seg.header.ack = true ∧
        c.sender.AckSends seg.header.ackno seg.header.win) := by
  by_cases hlen : seg.lengthInSequenceSpace > 0
  · rw [handle_of_occupies c seg hlen, notePassiveClose_sender, reply_eq,
      moveFront_queue, answering, informed_opens, informed_sender]
    cases hack : seg.header.ack with
    | true =>
        have hopens : c.opens seg = false := by
          rw [← Bool.not_eq_true]
          intro hopen
          exact absurd (hack.symm.trans (ack_of_opens hopen)) (by decide)
        have hacked := TCPSender.ackReceived_segmentsOut_iff c.sender
          seg.header.ackno seg.header.win
        rw [hqueue] at hacked
        simp only [hopens, if_true, Bool.false_eq_true, if_false, hlen,
          true_and, ← hacked, TCPSender.sendEmptySegment]
        cases (c.sender.ackReceived seg.header.ackno
          seg.header.win).segmentsOut <;> simp
    | false =>
        simp only [Bool.false_eq_true, if_false, false_and, and_false,
          not_false_eq_true, iff_true]
        split
        · exact fillWindow_tail h hqueue
        · simp [TCPSender.sendEmptySegment, hqueue]
  · rw [handle_of_not_occupies c seg hlen, notePassiveClose_sender]
    exact iff_of_true rfl fun hocc => hlen hocc.1

end Queue

/-! ## Segments that are left behind -/

/-- The operation is the receipt of a segment with the RST flag. -/
def Op.isRst : Op → Bool
  | .segmentReceived seg => seg.header.rst
  | .connect => false
  | .write _ => false
  | .endInputStream => false
  | .tick _ => false
  | .readInbound _ => false

/-- A segment that is to be answered does not carry an acknowledgment that
lets the sender send. -/
def AnsweredAlone (c : TCPConnection) : Op → Prop
  | .segmentReceived seg =>
      ¬ (c.active = true ∧ seg.header.rst = false ∧
        seg.lengthInSequenceSpace > 0 ∧ seg.header.ack = true ∧
        c.sender.AckSends seg.header.ackno seg.header.win)
  | .connect => True
  | .write _ => True
  | .endInputStream => True
  | .tick _ => True
  | .readInbound _ => True

instance answeredAloneDecidable (c : TCPConnection) :
    ∀ op, Decidable (c.AnsweredAlone op)
  | .segmentReceived _ => inferInstanceAs (Decidable (¬ _))
  | .connect => isTrue trivial
  | .write _ => isTrue trivial
  | .endInputStream => isTrue trivial
  | .tick _ => isTrue trivial
  | .readInbound _ => isTrue trivial

section Leftover

variable {c : TCPConnection} {op : Op}

theorem filled_step (h : c.sender.Filled) (op : Op) :
    (c.step op).sender.Filled := by
  obtain ⟨out, heq⟩ := c.step_sender op
  have hrun : (run TCPSender.drivenStep c.sender
      (c.senderOps op)).Filled :=
    run_preserves (fun _ o hs => hs.drivenStep o) h _
  rw [heq]
  exact ⟨hrun.fresh, hrun.drained⟩

/-- From an empty queue, an operation leaves something behind exactly if it is
a segment to be answered whose acknowledgment lets the sender send. -/
theorem step_queue_iff
    (h : c.sender.Filled) (hqueue : c.sender.segmentsOut = []) :
    (c.step op).sender.segmentsOut = [] ↔ c.AnsweredAlone op := by
  cases op with
  | connect =>
      refine iff_of_true ?_ trivial
      have htail := fillWindow_tail h hqueue
      unfold step connect
      simp only
      split
      next hempty => exact List.isEmpty_iff.mp hempty
      next => exact (moveFront_queue _ id).trans htail
  | write data =>
      refine iff_of_true ?_ trivial
      rw [step]
      cases hactive : c.active with
      | true => rw [write_of_active hactive]; rfl
      | false => rw [write_of_inactive hactive]; exact hqueue
  | endInputStream =>
      refine iff_of_true ?_ trivial
      rw [step]
      cases hactive : c.active with
      | true => rw [endInputStream_of_active hactive]; rfl
      | false => rw [endInputStream_of_inactive hactive]; exact hqueue
  | tick ms =>
      refine iff_of_true ?_ trivial
      rw [step]
      cases hactive : c.active with
      | true => rw [tick_of_active hactive]; rfl
      | false => rw [tick_of_inactive hactive]; exact hqueue
  | segmentReceived seg =>
      rw [step, AnsweredAlone]
      cases hactive : c.active with
      | true =>
          cases hrst : seg.header.rst with
          | true =>
              rw [segmentReceived_of_rst hactive hrst]
              exact iff_of_true hqueue fun hocc =>
                absurd hocc.2.1 (by decide)
          | false =>
              rw [segmentReceived_of_active hactive hrst]
              simp only [true_and]
              exact handle_queue_iff
                (c := { c with timeSinceLastSegmentReceived := 0 }) h hqueue
      | false =>
          rw [segmentReceived_of_inactive hactive]
          exact iff_of_true hqueue fun hocc => absurd hocc.1 (by decide)
  | readInbound len => exact iff_of_true hqueue trivial

theorem run_filled (cfg : TCPConfig) (randomIsn : UInt32) (ops : List Op) :
    (run step (new cfg randomIsn) ops).sender.Filled :=
  run_preserves (P := fun d : TCPConnection => d.sender.Filled)
    (fun _ op h => filled_step h op) (TCPSender.filled_new _ _ _ _) ops

/-- In every run: after every operation that began with an active connection
and is not the receipt of a RST, the queue of the sender is empty, exactly if
no segment that occupies a sequence number arrives with an acknowledgment that
lets the sender send. -/
theorem queue_empty_iff_answeredAlone
    (cfg : TCPConfig) (randomIsn : UInt32) (ops : List Op) :
    (∀ pre op, pre ++ [op] <+: ops →
      (run step (new cfg randomIsn) pre).active = true →
      op.isRst = false →
      ((run step (new cfg randomIsn) pre).step op).sender.segmentsOut =
        []) ↔
      Guarded step AnsweredAlone (new cfg randomIsn) ops := by
  have hall := forall_prefix_iff_guarded
    (P := fun d : TCPConnection => d.sender.segmentsOut = [])
    (s := new cfg randomIsn)
    (fun d op (hd : d.sender.Filled) (_ : True) => filled_step hd op)
    (fun d op hd _ hqueue => step_queue_iff hd hqueue)
    (TCPSender.filled_new _ _ _ _) rfl
    (guarded_of_forall (fun _ _ => trivial) _ ops)
  rw [← hall]
  constructor
  · intro hflushed pre hpre
    induction pre using List.reverseRecOn with
    | nil => rfl
    | append_singleton pre op ih =>
        have hqueue := ih ((List.prefix_append _ _).trans hpre)
        rw [run_concat]
        by_cases hlive : (run step (new cfg randomIsn) pre).active = true ∧
            op.isRst = false
        · exact hflushed pre op hpre hlive.1 hlive.2
        · -- a dead connection and a RST leave the queue alone
          rw [step_queue_iff (run_filled cfg randomIsn pre) hqueue]
          cases op with
          | segmentReceived seg => exact fun h => hlive ⟨h.1, h.2.1⟩
          | connect => trivial
          | write data => trivial
          | endInputStream => trivial
          | tick ms => trivial
          | readInbound len => trivial
  · intro hempty pre op hpre _ _
    have hafter := hempty (pre ++ [op]) hpre
    rw [run_concat] at hafter
    exact hafter

/-- Bytes are written before the peer has answered the SYN.  Its SYN-ACK opens
the window for them. -/
def earlyWriteRun : List Op :=
  [.connect, .write [97, 98],
    .segmentReceived (peerSegment true false 0 1 10)]

/-- The bytes take the place of the answer, and the answer is left behind. -/
theorem queue_not_empty_earlyWriteRun :
    (run step (new smallConfig 0) (earlyWriteRun.take 2)).active = true ∧
      (run step (new smallConfig 0) earlyWriteRun).sender.segmentsOut ≠
        [] := by
  decide

end Leftover

/-! ## Segments that are not answered -/

section Answered

/-- If the receiver of `c'` has an acknowledgment number, then between `c` and
`c'` a segment has been queued that carries it. -/
def Acknowledged (c c' : TCPConnection) : Prop :=
  ∀ ackno, c'.receiver.ackno = some ackno →
    ∃ pushed, c'.segmentsOut = c.segmentsOut ++ pushed ∧
      ∃ answer ∈ pushed,
        answer.header.ack = true ∧ answer.header.ackno = ackno

/-- The segment is a SYN without an acknowledgment, at an endpoint that did
not call `connect`, has sent its own SYN already and has nothing queued. -/
def LateSyn (c : TCPConnection) (seg : TCPSegment) : Prop :=
  seg.header.syn = true ∧ seg.header.ack = false ∧ c.initiator = false ∧
    c.sender.syn = true ∧ c.sender.segmentsOut = []

variable {c : TCPConnection} {seg : TCPSegment}

theorem opens_iff :
    c.opens seg = true ↔
      seg.header.syn = true ∧ seg.header.ack = false ∧
        c.initiator = false := by
  rw [opens, Bool.and_eq_true, Bool.and_eq_true, Bool.not_eq_true',
    Bool.not_eq_true', and_assoc]

theorem segmentReceived_ackno_of_syn
    (r : TCPReceiver) (h : seg.header.syn = true) :
    ∃ ackno, (r.segmentReceived seg).ackno = some ackno := by
  have hsyn : (r.segmentReceived seg).syn = true := by
    by_cases htakes : r.Takes seg
    · exact TCPReceiver.segmentReceived_syn htakes
    · rw [TCPReceiver.segmentReceived_of_not_takes htakes]
      exact (not_not.mp htakes).symm.trans h
  exact ⟨(r.segmentReceived seg).ack, if_pos hsyn⟩

/-- The sender has something to answer with, unless the segment is a late SYN. -/
theorem answering_eq_nil_iff (h : c.sender.Filled) :
    ((c.informed seg).answering seg).segmentsOut = [] ↔
      c.LateSyn seg := by
  rw [answering, informed_opens, informed_sender]
  by_cases hopens : c.opens seg = true
  · rw [if_pos hopens, ack_of_opens hopens]
    obtain ⟨hsyn, hack, hpassive⟩ := opens_iff.mp hopens
    simp only [Bool.false_eq_true, if_false, LateSyn, hsyn, hack,
      hpassive, true_and]
    cases hsent : c.sender.syn with
    | false =>
        have he := TCPSender.emission_syn hsent
        rw [← TCPSender.fillWindow_of_not_syn hsent] at he
        simp [he.segmentsOut]
    | true =>
        rw [TCPSender.fillWindow_of_drained hsent (h.drained hsent)]
        simp
  · rw [if_neg hopens]
    refine iff_of_false ?_ fun hlate =>
      hopens (opens_iff.mpr ⟨hlate.1, hlate.2.1, hlate.2.2.1⟩)
    simp [TCPSender.sendEmptySegment]

theorem handle_acknowledged_iff
    (h : c.sender.Filled) (hlen : seg.lengthInSequenceSpace > 0) :
    Acknowledged c (c.handle seg) ↔ ¬ c.LateSyn seg := by
  have hpushed := c.handle_pushed seg hlen
  have hreceiver : (c.handle seg).receiver = (c.informed seg).receiver := by
    rw [handle_receiver, informed_receiver]
  rw [← answering_eq_nil_iff h]
  constructor
  · intro hanswered hnil
    have hlate := (answering_eq_nil_iff h).mp hnil
    obtain ⟨ackno, hackno⟩ :=
      segmentReceived_ackno_of_syn c.receiver hlate.1
    rw [hnil] at hpushed
    obtain ⟨pushed, hout, answer, hmem, -⟩ := hanswered ackno (by
      rw [handle_receiver]
      exact hackno)
    rw [hpushed] at hout
    have hnone := List.append_cancel_left hout
    rw [← hnone] at hmem
    exact absurd hmem List.not_mem_nil
  · intro hne ackno hackno
    rw [hreceiver] at hackno
    obtain ⟨front, rest, hqueue⟩ := List.exists_cons_of_ne_nil hne
    rw [hqueue] at hpushed
    exact ⟨_, hpushed, _, List.mem_singleton_self _,
      completed_ackno _ hackno front⟩

/-- In every state that is reached and active, a segment that occupies a
sequence number and carries no RST is answered with the acknowledgment number
of the receiver, exactly if it is not a late SYN. -/
theorem segmentReceived_acknowledged_iff
    (cfg : TCPConfig) (randomIsn : UInt32) (ops : List Op)
    (seg : TCPSegment)
    (hactive : (run step (new cfg randomIsn) ops).active = true)
    (hrst : seg.header.rst = false) (hlen : seg.lengthInSequenceSpace > 0) :
    Acknowledged (run step (new cfg randomIsn) ops)
        ((run step (new cfg randomIsn) ops).segmentReceived seg) ↔
      ¬ (run step (new cfg randomIsn) ops).LateSyn seg := by
  rw [segmentReceived_of_active hactive hrst]
  exact handle_acknowledged_iff
    (c := { run step (new cfg randomIsn) ops with
      timeSinceLastSegmentReceived := 0 })
    (run_filled cfg randomIsn ops) hlen

/-- A SYN of the peer without an acknowledgment. -/
def bareSyn : TCPSegment :=
  { header := { syn := true, seqno := ⟨5⟩, win := 10 } }

/-- A FIN that arrives at a passive opener is answered. -/
theorem segmentReceived_acknowledged_fin :
    (run step (new smallConfig 0) [.segmentReceived bareSyn]).active = true ∧
      Acknowledged (run step (new smallConfig 0) [.segmentReceived bareSyn])
        ((run step (new smallConfig 0)
          [.segmentReceived bareSyn]).segmentReceived
            (peerSegment false true 6 1 10)) :=
  ⟨by decide, (segmentReceived_acknowledged_iff smallConfig 0
    [.segmentReceived bareSyn] (peerSegment false true 6 1 10) (by decide)
    (by decide) (by decide)).mpr fun h => absurd h.1 (by decide)⟩

/-- A passive opener does not answer when the SYN arrives again. -/
theorem segmentReceived_silent_repeatedSyn :
    let c := run step (new smallConfig 0) [.segmentReceived bareSyn]
    c.active = true ∧ bareSyn.header.rst = false ∧
      bareSyn.lengthInSequenceSpace > 0 ∧
      (c.segmentReceived bareSyn).receiver.ackno = some ⟨6⟩ ∧
      (c.segmentReceived bareSyn).segmentsOut = c.segmentsOut := by
  decide

end Answered

end TCPConnection

end Sponge
