import Sponge.TCPConnection.Leftover
import Sponge.TCPSender.FillWindow

/-!
# A connection that has not heard a SYN

An endpoint that waits for a connection should send nothing before a SYN
arrives, and one that has called `connect` has nothing to acknowledge before
the SYN of the peer.  Two paths through `segment_received` do not look whether
there is a connection: `ack_received` calls `fill_window`, which opens one,
and a segment that occupies a sequence number is answered with an
acknowledgment.
-/

namespace Sponge

namespace TCPConnection

/-! ## Waiting for a SYN -/

/-- A connection on which nothing has happened but the passing of time. -/
def waiting (cfg : TCPConfig) (randomIsn : UInt32) (time : ℕ) :
    TCPConnection :=
  { new cfg randomIsn with timeSinceLastSegmentReceived := time }

/-- The operation is a tick, or the receipt of a segment without the SYN and
RST flags. -/
def Op.OnlyWaits : Op → Prop
  | .tick _ => True
  | .segmentReceived seg =>
      seg.header.syn = false ∧ seg.header.rst = false
  | .connect => False
  | .write _ => False
  | .endInputStream => False
  | .readInbound _ => False

/-- A segment that is received occupies no sequence number, and does not
acknowledge the sequence number `isn`. -/
def Op.PassesBy (isn : WrappingInt32) : Op → Prop
  | .segmentReceived seg =>
      seg.lengthInSequenceSpace = 0 ∧
        ¬ (seg.header.ack = true ∧ seg.header.ackno = isn)
  | .tick _ => True
  | .connect => True
  | .write _ => True
  | .endInputStream => True
  | .readInbound _ => True

instance passesByDecidable (isn : WrappingInt32) :
    ∀ op : Op, Decidable (op.PassesBy isn)
  | .segmentReceived _ => inferInstanceAs (Decidable (_ ∧ ¬ _))
  | .tick _ => isTrue trivial
  | .connect => isTrue trivial
  | .write _ => isTrue trivial
  | .endInputStream => isTrue trivial
  | .readInbound _ => isTrue trivial

section Waiting

variable {cfg : TCPConfig} {randomIsn : UInt32} {time : ℕ}
  {seg : TCPSegment}

theorem waiting_active : (waiting cfg randomIsn time).active = true := rfl

theorem waiting_state :
    (waiting cfg randomIsn time).state = TCPState.ofState .listen := rfl

/-- Of all acknowledgment numbers, only the initial sequence number itself is
not beyond what has been sent. -/
theorem absoluteAckno_eq_zero_iff (ackno : WrappingInt32) :
    (waiting cfg randomIsn time).sender.absoluteAckno ackno = 0 ↔
      ackno = (new cfg randomIsn).sender.isn := by
  have hrelative : (waiting cfg randomIsn time).sender.absoluteAckno ackno =
      relativeSeqno ackno (new cfg randomIsn).sender.isn :=
    unwrap_of_checkpoint_zero _ _
  rw [hrelative, relativeSeqno_eq_zero_iff]

theorem tick_waiting (ms : ℕ) :
    (waiting cfg randomIsn time).tick ms =
      waiting cfg randomIsn (add64 time ms) := rfl

/-- Without a SYN, the receiver ignores everything. -/
theorem segmentReceived_of_unheard
    {r : TCPReceiver} (hr : r.syn = false) (hsyn : seg.header.syn = false) :
    r.segmentReceived seg = r :=
  TCPReceiver.segmentReceived_of_not_takes
    (not_not.mpr (hsyn.trans hr.symm))

theorem segmentReceived_waiting
    (hsyn : seg.header.syn = false) (hrst : seg.header.rst = false)
    (hpasses : Op.PassesBy (new cfg randomIsn).sender.isn
      (.segmentReceived seg)) :
    (waiting cfg randomIsn time).segmentReceived seg =
      waiting cfg randomIsn 0 := by
  obtain ⟨hlen, hack⟩ := hpasses
  have hinformed :
      (waiting cfg randomIsn 0).informed seg = waiting cfg randomIsn 0 := by
    have hreceiver :
        (waiting cfg randomIsn 0).receiver.segmentReceived seg =
          (waiting cfg randomIsn 0).receiver :=
      segmentReceived_of_unheard rfl hsyn
    rw [informed, hreceiver, ackSender]
    split
    next hflag =>
      have hbeyond : (waiting cfg randomIsn 0).sender.absoluteAckno
          seg.header.ackno > 0 := by
        rw [gt_iff_lt, Nat.pos_iff_ne_zero, Ne, absoluteAckno_eq_zero_iff]
        exact fun heq => hack ⟨hflag, heq⟩
      have hignored : (waiting cfg randomIsn 0).sender.ackReceived
          seg.header.ackno seg.header.win =
            (waiting cfg randomIsn 0).sender := by
        rw [TCPSender.ackReceived]
        exact if_pos hbeyond
      rw [hignored]
    · rfl
  have hnone : ¬ seg.lengthInSequenceSpace > 0 := by omega
  rw [segmentReceived_of_active waiting_active hrst]
  change (waiting cfg randomIsn 0).handle seg = _
  rw [handle_of_not_occupies _ _ hnone, hinformed]
  rfl

theorem segmentsOut_of_not_passesBy
    (hsyn : seg.header.syn = false) (hrst : seg.header.rst = false)
    (hpasses : ¬ Op.PassesBy (new cfg randomIsn).sender.isn
      (.segmentReceived seg)) :
    ((waiting cfg randomIsn time).segmentReceived seg).segmentsOut ≠ [] := by
  have hfilled : (waiting cfg randomIsn 0).sender.Filled :=
    TCPSender.filled_new _ _ _ _
  rw [segmentReceived_of_active waiting_active hrst]
  change ((waiting cfg randomIsn 0).handle seg).segmentsOut ≠ []
  by_cases hlen : seg.lengthInSequenceSpace > 0
  · have hqueue :
        (((waiting cfg randomIsn 0).informed seg).answering
          seg).segmentsOut ≠ [] := by
      rw [Ne, answering_eq_nil_iff hfilled]
      exact fun hlate => absurd (hsyn.symm.trans hlate.1) (by decide)
    obtain ⟨front, rest, hcons⟩ := List.exists_cons_of_ne_nil hqueue
    rw [handle_pushed _ _ hlen, hcons]
    simp
  · have hack : seg.header.ack = true ∧
        seg.header.ackno = (new cfg randomIsn).sender.isn := by
      by_contra hno
      exact hpasses ⟨by omega, hno⟩
    have hzero : (waiting cfg randomIsn 0).sender.absoluteAckno
        seg.header.ackno = 0 := (absoluteAckno_eq_zero_iff _).mpr hack.2
    have hsends : (waiting cfg randomIsn 0).sender.AckSends
        seg.header.ackno seg.header.win := by
      refine ⟨?_, Nat.zero_le _, Or.inl rfl⟩
      rw [hzero]
      exact Nat.zero_le _
    have hqueued : ((waiting cfg randomIsn 0).informed
        seg).sender.segmentsOut ≠ [] := by
      rw [informed_sender, if_pos hack.1]
      intro hnil
      exact (TCPSender.ackReceived_segmentsOut_iff _ _ _).mp hnil hsends
    rw [handle_of_not_occupies _ _ hlen, notePassiveClose_segmentsOut,
      flushBuffer]
    simp [hqueued]

variable {op : Op}

theorem step_waiting
    (hop : op.OnlyWaits)
    (hpasses : op.PassesBy (new cfg randomIsn).sender.isn) :
    ∃ time', (waiting cfg randomIsn time).step op =
      waiting cfg randomIsn time' := by
  cases op with
  | tick ms => exact ⟨_, tick_waiting ms⟩
  | segmentReceived seg =>
      exact ⟨0, segmentReceived_waiting hop.1 hop.2 hpasses⟩
  | connect => exact hop.elim
  | write data => exact hop.elim
  | endInputStream => exact hop.elim
  | readInbound len => exact hop.elim

theorem step_waiting_sends
    (hop : op.OnlyWaits)
    (hpasses : ¬ op.PassesBy (new cfg randomIsn).sender.isn) :
    ((waiting cfg randomIsn time).step op).segmentsOut ≠ [] := by
  cases op with
  | tick ms => exact absurd trivial hpasses
  | segmentReceived seg =>
      exact segmentsOut_of_not_passesBy hop.1 hop.2 hpasses
  | connect => exact hop.elim
  | write data => exact hop.elim
  | endInputStream => exact hop.elim
  | readInbound len => exact hop.elim

end Waiting

end TCPConnection

/-! ## The flags of the segments that a sender makes -/

namespace TCPSender

/-- No segment that is queued or outstanding carries an acknowledgment or a
reset. -/
structure Bare (s : TCPSender) : Prop where
  queued : ∀ seg ∈ s.segmentsOut, Unflagged seg
  outstanding : ∀ e ∈ s.outstandingSegments.entries, Unflagged e.2

section Bare

variable {s : TCPSender}

theorem Bare.sendSegment
    (h : Bare s) {segment : TCPSegment} (hsegment : Unflagged segment) :
    Bare (s.sendSegment segment) := by
  rw [sendSegment_eq]
  refine ⟨List.forall_mem_append.mpr
    ⟨h.queued, List.forall_mem_singleton.mpr hsegment⟩, fun e he => ?_⟩
  rcases OrderedMap.insertEntry_subset he with rfl | hold
  · exact hsegment
  · exact h.outstanding e hold

theorem Bare.fillWindow (h : Bare s) : Bare s.fillWindow := by
  apply fillWindow_rule
  · rintro r t ⟨_, _, _, _, _, _, rfl⟩ hr
    exact ⟨hr.queued, hr.outstanding⟩
  · intro r segment hsegment hr
    exact hr.sendSegment hsegment
  · exact h

theorem Bare.ackReceived
    (h : Bare s) (ackno : WrappingInt32) (windowSize : UInt16) :
    Bare (s.ackReceived ackno windowSize) := by
  apply ackReceived_rule h
  · exact ⟨h.queued, h.outstanding⟩
  · intro _
    have ha := applied_applyAck s (s.absoluteAckno ackno) windowSize
    apply Bare.fillWindow
    refine ⟨ha.segmentsOut ▸ h.queued, ?_⟩
    rcases ha.removed with ⟨-, hout, -⟩ | ⟨segment, -, hout, -⟩
    · rw [hout]
      exact h.outstanding
    · rw [hout, OrderedMap.filterKeys_entries]
      exact fun e he => h.outstanding e (List.mem_of_mem_filter he)

theorem Bare.tick (h : Bare s) (ms : ℕ) : Bare (s.tick ms) := by
  have hticked := ticked_tick s ms
  refine ⟨?_, hticked.outstanding ▸ h.outstanding⟩
  rcases hticked.segmentsOut with hsame | ⟨e, hhead, hout⟩
  · rw [hsame]
    exact h.queued
  · rw [hout]
    exact List.forall_mem_append.mpr ⟨h.queued,
      List.forall_mem_singleton.mpr
        (h.outstanding e (List.mem_of_mem_head? hhead))⟩

end Bare

end TCPSender

namespace TCPConnection

/-! ## After `connect` -/

/-- The operation is not the receipt of a SYN. -/
def Op.NoSyn : Op → Prop
  | .segmentReceived seg => seg.header.syn = false
  | .connect => True
  | .write _ => True
  | .endInputStream => True
  | .tick _ => True
  | .readInbound _ => True

/-- A segment that is processed occupies no sequence number. -/
def NotOccupied (c : TCPConnection) : Op → Prop
  | .segmentReceived seg =>
      ¬ (c.active = true ∧ seg.header.rst = false ∧
        seg.lengthInSequenceSpace > 0)
  | .connect => True
  | .write _ => True
  | .endInputStream => True
  | .tick _ => True
  | .readInbound _ => True

instance notOccupiedDecidable (c : TCPConnection) :
    ∀ op, Decidable (c.NotOccupied op)
  | .segmentReceived _ => inferInstanceAs (Decidable (¬ _))
  | .connect => isTrue trivial
  | .write _ => isTrue trivial
  | .endInputStream => isTrue trivial
  | .tick _ => isTrue trivial
  | .readInbound _ => isTrue trivial

/-- No segment without the RST flag carries an acknowledgment. -/
def AcknowledgesNothing (c : TCPConnection) : Prop :=
  ∀ seg ∈ c.segmentsOut, seg.header.rst = false → seg.header.ack = false

/-- The peer has not been heard, and nothing is acknowledged. -/
structure Unheard (c : TCPConnection) : Prop where
  syn : c.receiver.syn = false
  bare : c.sender.Bare
  quiet : c.AcknowledgesNothing

section Unheard

variable {c : TCPConnection} {seg : TCPSegment}

theorem Unheard.ackno (h : Unheard c) : c.receiver.ackno = none := by
  simp [TCPReceiver.ackno, h.syn]

theorem Unheard.withSender
    (h : Unheard c) {s : TCPSender} (hs : s.Bare) :
    Unheard { c with sender := s } :=
  ⟨h.syn, hs, h.quiet⟩

theorem Unheard.flushBuffer (h : Unheard c) : Unheard c.flushBuffer where
  syn := h.syn
  bare := ⟨List.forall_mem_nil _, h.bare.outstanding⟩
  quiet := by
    refine List.forall_mem_append.mpr ⟨h.quiet, ?_⟩
    rintro _ hmem _
    obtain ⟨seg, hseg, rfl⟩ := List.mem_map.mp hmem
    rw [acknowledge, h.ackno]
    exact (h.bare.queued seg hseg).1

/-- Moving a segment whose edited form is harmless. -/
theorem unheard_moveFront
    {edit : TCPSegment → TCPSegment} (hsyn : c.receiver.syn = false)
    (hrest : ∀ seg ∈ c.sender.segmentsOut.tail, TCPSender.Unflagged seg)
    (hkept : ∀ e ∈ c.sender.outstandingSegments.entries,
      TCPSender.Unflagged e.2)
    (hquiet : c.AcknowledgesNothing)
    (hedit : ∀ seg ∈ c.sender.segmentsOut.head?,
      (edit seg).header.rst = false → (edit seg).header.ack = false) :
    Unheard (c.moveFront edit) := by
  refine ⟨?_, ⟨?_, ?_⟩, ?_⟩
  · rw [moveFront_receiver]
    exact hsyn
  · rw [moveFront_queue]
    exact hrest
  · obtain ⟨out, heq⟩ := c.moveFront_sender edit
    rw [heq]
    exact hkept
  · rw [AcknowledgesNothing, moveFront_pushed]
    refine List.forall_mem_append.mpr ⟨hquiet, fun seg hseg => ?_⟩
    obtain ⟨front, hfront, rfl⟩ :=
      Option.map_eq_some_iff.mp (Option.mem_toList.mp hseg)
    exact hedit front hfront

theorem Unheard.connect (h : Unheard c) : Unheard c.connect := by
  have hbare := h.bare.fillWindow
  have hfilled := h.withSender hbare
  unfold TCPConnection.connect
  simp only
  split
  · exact hfilled
  · have hmoved : Unheard
        (moveFront { c with sender := c.sender.fillWindow } id) :=
      unheard_moveFront h.syn
        (fun seg hseg => hbare.queued seg (List.mem_of_mem_tail hseg))
        hbare.outstanding h.quiet
        fun seg hseg _ => (hbare.queued seg (List.mem_of_mem_head? hseg)).1
    exact ⟨hmoved.syn, hmoved.bare, hmoved.quiet⟩

theorem Unheard.setErrors (h : Unheard c) : Unheard c.setErrors :=
  ⟨h.syn, ⟨h.bare.queued, h.bare.outstanding⟩, h.quiet⟩

/-- The segment that tells the peer of the end carries the RST flag. -/
theorem Unheard.uncleanShutdown (h : Unheard c) :
    Unheard c.uncleanShutdown := by
  have herrors := h.setErrors
  unfold TCPConnection.uncleanShutdown
  by_cases hempty : c.setErrors.sender.segmentsOut.isEmpty = true
  · simp only [if_pos hempty]
    have hnil := List.isEmpty_iff.mp hempty
    refine unheard_moveFront herrors.syn ?_ herrors.bare.outstanding
      herrors.quiet fun _ _ hrst => absurd hrst.symm Bool.false_ne_true
    simp [TCPSender.sendEmptySegment, hnil]
  · simp only [if_neg hempty]
    exact unheard_moveFront herrors.syn
      (fun seg hseg => herrors.bare.queued seg (List.mem_of_mem_tail hseg))
      herrors.bare.outstanding herrors.quiet
      fun _ _ hrst => absurd hrst.symm Bool.false_ne_true

theorem Unheard.tick (h : Unheard c) (ms : ℕ) : Unheard (c.tick ms) := by
  cases hactive : c.active with
  | true =>
      have hclock : Unheard (c.clock ms) :=
        ⟨h.syn, h.bare.tick ms, h.quiet⟩
      rw [tick_of_active hactive]
      split
      · exact hclock.uncleanShutdown.flushBuffer
      · exact hclock.flushBuffer
  | false =>
      rw [tick_of_inactive hactive]
      exact h

/-- Without a SYN in the segment, only the sender is informed. -/
theorem Unheard.informed (h : Unheard c) (hsyn : seg.header.syn = false) :
    Unheard (c.informed seg) := by
  refine ⟨?_, ?_, ?_⟩
  · rw [informed_receiver, segmentReceived_of_unheard h.syn hsyn]
    exact h.syn
  · rw [informed_sender]
    split
    · exact h.bare.ackReceived _ _
    · exact h.bare
  · rw [AcknowledgesNothing, informed_segmentsOut]
    exact h.quiet

theorem Unheard.notePassiveClose (h : Unheard c) :
    Unheard c.notePassiveClose := by
  unfold TCPConnection.notePassiveClose
  split
  · exact ⟨h.syn, h.bare, h.quiet⟩
  · exact h

theorem Unheard.step
    (h : Unheard c) {op : Op} (hop : op.NoSyn) (hsafe : c.NotOccupied op) :
    Unheard (c.step op) := by
  cases op with
  | connect => exact h.connect
  | write data =>
      rw [TCPConnection.step]
      cases hactive : c.active with
      | true =>
          rw [write_of_active hactive]
          have hwritten :
              (c.sender.step (.write data)).Bare :=
            ⟨h.bare.queued, h.bare.outstanding⟩
          exact (h.withSender hwritten.fillWindow).flushBuffer
      | false =>
          rw [write_of_inactive hactive]
          exact h
  | endInputStream =>
      rw [TCPConnection.step]
      cases hactive : c.active with
      | true =>
          rw [endInputStream_of_active hactive]
          have hended : (c.sender.step .endInput).Bare :=
            ⟨h.bare.queued, h.bare.outstanding⟩
          exact (h.withSender hended.fillWindow).flushBuffer
      | false =>
          rw [endInputStream_of_inactive hactive]
          exact h
  | tick ms => exact h.tick ms
  | segmentReceived seg =>
      rw [TCPConnection.step]
      cases hactive : c.active with
      | true =>
          have hnow : Unheard
              { c with timeSinceLastSegmentReceived := 0 } :=
            ⟨h.syn, h.bare, h.quiet⟩
          cases hrst : seg.header.rst with
          | true =>
              rw [segmentReceived_of_rst hactive hrst]
              exact hnow.setErrors
          | false =>
              have hlen : ¬ seg.lengthInSequenceSpace > 0 :=
                fun hlen => hsafe ⟨hactive, hrst, hlen⟩
              rw [segmentReceived_of_active hactive hrst,
                handle_of_not_occupies _ _ hlen]
              exact (hnow.informed hop).flushBuffer.notePassiveClose
      | false =>
          rw [segmentReceived_of_inactive hactive]
          exact h
  | readInbound len => exact ⟨h.syn, h.bare, h.quiet⟩

theorem opens_of_not_syn (h : seg.header.syn = false) :
    c.opens seg = false := by
  rw [opens, h]
  rfl

/-- The answer is taken from the queue of the sender, or is an empty
segment. -/
theorem Unheard.answering_front
    (h : Unheard c) (hopens : c.opens seg = false) :
    ∃ front, (c.answering seg).segmentsOut.head? = some front ∧
      front.header.rst = false := by
  rw [answering, hopens]
  simp only [Bool.false_eq_true, if_false, TCPSender.sendEmptySegment]
  cases hqueue : c.sender.segmentsOut with
  | nil => exact ⟨_, rfl, rfl⟩
  | cons front rest =>
      exact ⟨front, rfl, (h.bare.queued front (by simp [hqueue])).2⟩

/-- The answer to a segment that occupies a sequence number carries the ACK
flag although there is nothing to acknowledge. -/
theorem Unheard.acknowledges
    (h : Unheard c) {op : Op} (hop : op.NoSyn)
    (hbad : ¬ c.NotOccupied op) :
    ¬ (c.step op).AcknowledgesNothing := by
  cases op with
  | segmentReceived seg =>
      obtain ⟨hactive, hrst, hlen⟩ := not_not.mp hbad
      have hnow : Unheard { c with timeSinceLastSegmentReceived := 0 } :=
        ⟨h.syn, h.bare, h.quiet⟩
      rw [TCPConnection.step, segmentReceived_of_active hactive hrst,
        AcknowledgesNothing, handle_pushed _ _ hlen]
      obtain ⟨front, hfront, hplain⟩ :=
        (hnow.informed hop).answering_front (opens_of_not_syn hop)
      rw [hfront]
      intro hquiet
      have hanswer := hquiet _
        (List.mem_append_right _ (List.mem_singleton_self _))
      rw [completed, noteAckno, (hnow.informed hop).ackno] at hanswer
      exact Bool.false_ne_true (hanswer hplain).symm
  | connect => exact absurd trivial hbad
  | write data => exact absurd trivial hbad
  | endInputStream => exact absurd trivial hbad
  | tick ms => exact absurd trivial hbad
  | readInbound len => exact absurd trivial hbad

end Unheard

/-! ## Whole runs -/

section Runs

variable (cfg : TCPConfig) (randomIsn : UInt32)

/-- The state while waiting, over a run. -/
theorem run_waiting_iff
    {waits : List Op} (hwaits : ∀ op ∈ waits, op.OnlyWaits) :
    (∀ pre, pre <+: waits →
        (run step (new cfg randomIsn) pre).segmentsOut = [] ∧
          (run step (new cfg randomIsn) pre).state =
            TCPState.ofState .listen) ↔
      ∀ op ∈ waits, op.PassesBy (new cfg randomIsn).sender.isn := by
  have hkeeps : ∀ (d : TCPConnection) (op : Op),
      (∃ time, d = waiting cfg randomIsn time) → op.OnlyWaits →
      op.PassesBy (new cfg randomIsn).sender.isn →
      (∃ time, d.step op = waiting cfg randomIsn time) ∧
        ((d.step op).segmentsOut = [] ∧
          (d.step op).state = TCPState.ofState .listen) := by
    rintro _ op ⟨time, rfl⟩ hop hpasses
    obtain ⟨time', heq⟩ := step_waiting hop hpasses
    rw [heq]
    exact ⟨⟨time', rfl⟩, rfl, waiting_state⟩
  have hbreaks : ∀ (d : TCPConnection) (op : Op),
      (∃ time, d = waiting cfg randomIsn time) → op.OnlyWaits →
      ¬ op.PassesBy (new cfg randomIsn).sender.isn →
      ¬ ((d.step op).segmentsOut = [] ∧
        (d.step op).state = TCPState.ofState .listen) := by
    rintro _ op ⟨time, rfl⟩ hop hpasses hquiet
    exact step_waiting_sends hop hpasses hquiet.1
  have hall := forall_prefix_iff_guarded_of_breaks
    (P := fun d : TCPConnection => d.segmentsOut = [] ∧
      d.state = TCPState.ofState .listen)
    hkeeps hbreaks (s := new cfg randomIsn) ⟨0, rfl⟩ ⟨rfl, waiting_state⟩
    (guarded_of_forall_mem hwaits _)
  exact hall.trans guarded_iff_forall_mem

/-- What is sent after `connect`, over a run. -/
theorem run_unheard_iff
    {opened : List Op} (hopened : ∀ op ∈ opened, op.NoSyn) :
    (∀ pre, pre <+: opened →
        (run step (new cfg randomIsn)
          (.connect :: pre)).AcknowledgesNothing) ↔
      Guarded step NotOccupied ((new cfg randomIsn).step .connect)
        opened := by
  have hfresh : Unheard (new cfg randomIsn) :=
    ⟨rfl, ⟨List.forall_mem_nil _, List.forall_mem_nil _⟩,
      List.forall_mem_nil _⟩
  exact forall_prefix_iff_guarded_of_breaks
    (fun d op (hd : d.Unheard) hop hsafe =>
      ⟨hd.step hop hsafe, (hd.step hop hsafe).quiet⟩)
    (fun d op hd hop hbad => hd.acknowledges hop hbad)
    hfresh.connect hfresh.connect.quiet (guarded_of_forall_mem hopened _)

/-- A fresh connection.  While only ticks happen and segments without SYN and
RST arrive, it sends nothing and stays in LISTEN exactly if none of the
segments occupies a sequence number or acknowledges the initial sequence
number.  After `connect`, and as long as no SYN arrives, no segment without
the RST flag acknowledges anything exactly if no segment that is processed
occupies a sequence number. -/
theorem quiet_before_syn_iff
    (waits opened : List Op) (hwaits : ∀ op ∈ waits, op.OnlyWaits)
    (hopened : ∀ op ∈ opened, op.NoSyn) :
    ((∀ pre, pre <+: waits →
        (run step (new cfg randomIsn) pre).segmentsOut = [] ∧
          (run step (new cfg randomIsn) pre).state =
            TCPState.ofState .listen) ↔
      ∀ op ∈ waits, op.PassesBy (new cfg randomIsn).sender.isn) ∧
    ((∀ pre, pre <+: opened →
        ∀ seg ∈ (run step (new cfg randomIsn)
          (.connect :: pre)).segmentsOut,
          seg.header.rst = false → seg.header.ack = false) ↔
      Guarded step NotOccupied ((new cfg randomIsn).step .connect)
        opened) :=
  ⟨run_waiting_iff cfg randomIsn hwaits,
    run_unheard_iff cfg randomIsn hopened⟩

end Runs

/-- An acknowledgment of a sequence number that has not been sent. -/
def strayAck : TCPSegment :=
  { header := { ack := true, ackno := ⟨7⟩, win := 10 } }

/-- A byte without a SYN. -/
def strayByte : TCPSegment :=
  { header := { seqno := ⟨5⟩ }, payload := Buffer.ofString [97] }

/-- A stray acknowledgment disturbs neither a waiting connection nor one that
has called `connect`. -/
theorem quiet_before_syn_strayAck :
    (new smallConfig 0).sender.isn = ⟨0⟩ ∧
      (∀ pre, pre <+: [.segmentReceived strayAck, .tick 5] →
        (run step (new smallConfig 0) pre).segmentsOut = [] ∧
          (run step (new smallConfig 0) pre).state =
            TCPState.ofState .listen) ∧
      ∀ pre, pre <+: [.segmentReceived strayAck, .tick 1000] →
        ∀ seg ∈ (run step (new smallConfig 0)
          (.connect :: pre)).segmentsOut,
          seg.header.rst = false → seg.header.ack = false := by
  have h := quiet_before_syn_iff smallConfig 0
    [.segmentReceived strayAck, .tick 5]
    [.segmentReceived strayAck, .tick 1000]
    (by simp [Op.OnlyWaits, strayAck]) (by simp [Op.NoSyn, strayAck])
  exact ⟨rfl, h.1.mpr (by decide), h.2.mpr (by decide)⟩

/-- A waiting connection answers a byte with an acknowledgment of nothing, and
opens a connection when its initial sequence number is acknowledged; after
`connect`, too, a byte is acknowledged before there is a SYN. -/
theorem not_quiet_before_syn_strayByte :
    (run step (new smallConfig 0)
        [.segmentReceived strayByte]).segmentsOut ≠ [] ∧
      (run step (new smallConfig 0)
        [.segmentReceived (peerSegment false false 0 0 10)]).state =
          TCPState.ofState .synSent ∧
      (run step (new smallConfig 0)
        [.connect, .segmentReceived strayByte]).segmentsOut.map
          (fun seg => (seg.header.rst, seg.header.ack)) =
        [(false, false), (false, true)] := by
  decide

end TCPConnection

end Sponge
