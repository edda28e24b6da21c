import Sponge.EndToEnd.InOrder

/-!
# The segments on their way out

A connection hands the segments of its sender on in the order in which they
were queued, and completes their headers.  So what the connection has sent,
followed by what still waits in the queue of its sender, is one pipe to whose
end every step appends.

In the opposite direction the headers carry what the receiver says.  Read in
order they show the sender a window that only moves forward.
-/

namespace Sponge

namespace TCPConnection

open TCPSender (Advances Continues)

/-! ## The pipe -/

/-- What a connection never changes in a segment of its sender. -/
def content (seg : TCPSegment) : WrappingInt32 × Bool × Bool × Buffer :=
  (seg.header.seqno, seg.header.syn, seg.header.fin, seg.payload)

/-- What was sent and what the sender has queued. -/
def pipe (c : TCPConnection) : List TCPSegment :=
  c.segmentsOut ++ c.sender.segmentsOut

/-- From `c` to `c'` segments were put into the pipe that advance as far as
the sender has; those that were there have kept their content. -/
structure Conveys (c c' : TCPConnection) : Prop where
  isn : c'.sender.isn = c.sender.isn
  piped : ∃ new, c'.pipe.map content = (c.pipe ++ new).map content ∧
    Path (Advances c.sender.isn) c.sender.nextSeqnoAbsolute new
      c'.sender.nextSeqnoAbsolute

section Conveys

variable {c c' c'' : TCPConnection} {op : Op}

theorem SameContent.content_eq
    {made seg : TCPSegment} (h : SameContent made seg) :
    content seg = content made := by
  rw [content, content, h.seqno, h.syn, h.fin, h.payload]

/-- The content decides how far a segment advances. -/
theorem advances_of_content_eq
    {isn : WrappingInt32} {pos pos' : ℕ} {a b : TCPSegment}
    (h : content a = content b) (hadv : Advances isn pos a pos') :
    Advances isn pos b pos' := by
  obtain ⟨hseqno, hsyn, hfin, hpayload⟩ :
      _ ∧ _ ∧ _ ∧ _ := by simpa only [content, Prod.mk.injEq] using h
  have hlength : b.lengthInSequenceSpace = a.lengthInSequenceSpace := by
    rw [TCPSegment.lengthInSequenceSpace, ← hpayload, ← hsyn, ← hfin]
    rfl
  obtain ⟨n, hn, hpos⟩ := hadv
  refine ⟨n, hseqno.symm.trans hn, ?_⟩
  rw [hlength]
  exact hpos

theorem conveys_of_same
    (hisn : c'.sender.isn = c.sender.isn)
    (hnext : c'.sender.nextSeqnoAbsolute = c.sender.nextSeqnoAbsolute)
    (hpipe : c'.pipe.map content = c.pipe.map content) : Conveys c c' := by
  refine ⟨hisn, [], ?_, hnext.symm⟩
  rw [List.append_nil]
  exact hpipe

theorem Conveys.trans (h : Conveys c c') (h' : Conveys c' c'') :
    Conveys c c'' := by
  obtain ⟨new, hpipe, hpath⟩ := h.piped
  obtain ⟨new', hpipe', hpath'⟩ := h'.piped
  refine ⟨h'.isn.trans h.isn, new ++ new', ?_, ?_⟩
  · rw [hpipe', List.map_append, hpipe, ← List.map_append, List.append_assoc]
  · rw [h.isn] at hpath'
    exact path_append.mpr ⟨_, hpath, hpath'⟩

/-- What the sender queues goes into the pipe. -/
theorem conveys_sender
    {s : TCPSender} (h : Continues c.sender s) :
    Conveys c { c with sender := s } := by
  obtain ⟨new, hout, hpath⟩ := h.queued
  refine ⟨h.isn, new, ?_, hpath⟩
  rw [pipe, pipe, hout, List.append_assoc]

theorem conveys_congr
    (hsender : c'.sender = c.sender)
    (hout : c'.segmentsOut = c.segmentsOut) : Conveys c c' := by
  apply conveys_of_same
  · rw [hsender]
  · rw [hsender]
  · rw [pipe, pipe, hsender, hout]

theorem conveys_moveFront
    (c : TCPConnection) {edit : TCPSegment → TCPSegment}
    (hedit : ∀ seg, content (edit seg) = content seg) :
    Conveys c (c.moveFront edit) := by
  unfold moveFront
  split
  next seg rest hqueue =>
    refine conveys_of_same rfl rfl ?_
    simp only [pipe, hqueue, List.map_append, List.map_cons,
      hedit, List.append_assoc, List.singleton_append]
  · exact conveys_congr rfl rfl

theorem conveys_flushBuffer (c : TCPConnection) :
    Conveys c c.flushBuffer := by
  refine conveys_of_same rfl rfl ?_
  have hedit : content ∘ (fun seg => c.acknowledge seg) = content :=
    funext fun seg => (sameContent_acknowledge c seg).1.content_eq
  simp only [pipe, flushBuffer, List.append_nil, List.map_append,
    List.map_map, hedit]

theorem conveys_handle (c : TCPConnection) (seg : TCPSegment) :
    Conveys c (c.handle seg) := by
  have hreceived : Conveys c
      { c with receiver := c.receiver.segmentReceived seg } :=
    conveys_congr rfl rfl
  have hinformed : Conveys c (c.informed seg) := by
    unfold informed ackSender
    split
    · exact hreceived.trans
        (conveys_sender (TCPSender.continues_ackReceived _ _ _))
    · exact hreceived
  by_cases hlen : seg.lengthInSequenceSpace > 0
  · have hanswering : Conveys (c.informed seg)
        { c.informed seg with sender := (c.informed seg).answering seg } := by
      apply conveys_sender
      unfold answering
      split
      · exact (TCPSender.fillWindow_emits _).continues
      · exact TCPSender.continues_sendEmptySegment _
    rw [handle_of_occupies c seg hlen, reply_eq]
    refine ((hinformed.trans hanswering).trans (conveys_moveFront _
      fun made =>
        (sameContent_completed (c.informed seg) made).content_eq)).trans ?_
    exact conveys_congr (notePassiveClose_sender _)
      (notePassiveClose_segmentsOut _)
  · rw [handle_of_not_occupies c seg hlen]
    refine (hinformed.trans (conveys_flushBuffer _)).trans ?_
    exact conveys_congr (notePassiveClose_sender _)
      (notePassiveClose_segmentsOut _)

/-- A step that does not break the connection only adds to the pipe. -/
theorem conveys_step
    (h : c.sender.Segmented) (hop : c.resets op = false) :
    Conveys c (c.step op) := by
  have hsame : Conveys c c := conveys_congr rfl rfl
  cases op with
  | connect =>
      have hfilled : Conveys c { c with sender := c.sender.fillWindow } :=
        conveys_sender (TCPSender.fillWindow_emits _).continues
      unfold step connect
      simp only
      split
      · exact hfilled
      · exact (hfilled.trans (conveys_moveFront _ fun _ => rfl)).trans
          (conveys_congr rfl rfl)
  | write data =>
      rw [step]
      cases hactive : c.active with
      | true =>
          rw [write_of_active hactive]
          exact (conveys_sender (h.continues_drivenStep (.write data))).trans
            (conveys_flushBuffer _)
      | false =>
          rw [write_of_inactive hactive]
          exact hsame
  | endInputStream =>
      rw [step]
      cases hactive : c.active with
      | true =>
          rw [endInputStream_of_active hactive]
          exact (conveys_sender (h.continues_drivenStep .endInput)).trans
            (conveys_flushBuffer _)
      | false =>
          rw [endInputStream_of_inactive hactive]
          exact hsame
  | tick ms =>
      rw [step]
      cases hactive : c.active with
      | true =>
          have hclock : Conveys c (c.clock ms) :=
            (conveys_sender (h.continues_tick ms)).trans
              (conveys_congr rfl rfl)
          rw [resets, hactive, Bool.true_and, decide_eq_false_iff_not] at hop
          rw [tick_of_active hactive, if_neg hop]
          exact hclock.trans (conveys_flushBuffer _)
      | false =>
          rw [tick_of_inactive hactive]
          exact hsame
  | segmentReceived seg =>
      rw [step]
      cases hactive : c.active with
      | true =>
          rw [resets, hactive, Bool.true_and] at hop
          rw [segmentReceived_of_active hactive hop]
          have hnow : Conveys c { c with timeSinceLastSegmentReceived := 0 } :=
            conveys_congr rfl rfl
          exact hnow.trans (conveys_handle _ seg)
      | false =>
          rw [segmentReceived_of_inactive hactive]
          exact hsame
  | readInbound len => exact conveys_congr rfl rfl

end Conveys

/-! ## Both SYNs -/

/-- The connection has sent its SYN exactly if it has called `connect` or has
received a SYN. -/
def Greeted (c : TCPConnection) : Prop :=
  c.sender.syn = true ↔ c.initiator = true ∨ c.receiver.syn = true

section Greeted

variable {c : TCPConnection} {op : Op}

theorem fillWindow_syn (s : TCPSender) : s.fillWindow.syn = true := by
  cases hsyn : s.syn with
  | true => exact (TCPSender.fillWindow_emits s).syn hsyn
  | false =>
      rw [TCPSender.fillWindow_of_not_syn hsyn]
      exact (TCPSender.emission_syn hsyn).syn

theorem drivenStep_syn
    {s : TCPSender} (h : s.syn = true) (op : TCPSender.Op) :
    (s.drivenStep op).syn = true := by
  cases op with
  | write data => exact fillWindow_syn _
  | endInput => exact fillWindow_syn _
  | fillWindow => exact fillWindow_syn _
  | ackReceived ackno windowSize =>
      obtain ⟨m, hsame, hemits⟩ :=
        TCPSender.ackReceived_emits s ackno windowSize
      exact hemits.syn (hsame.syn.trans h)
  | tick ms => exact (TCPSender.ticked_tick s ms).sameSent.syn.trans h
  | sendEmptySegment => exact h

/-- The SYN is never taken back. -/
theorem step_sender_syn (h : c.sender.syn = true) (op : Op) :
    (c.step op).sender.syn = true :=
  c.step_sender_invariant (P := fun s => s.syn = true)
    (fun _ _ _ hs => hs) (fun _ op hs _ => drivenStep_syn hs op) h
    (guarded_of_forall (fun _ _ => trivial) _ _)

theorem handle_initiator (c : TCPConnection) (seg : TCPSegment) :
    (c.handle seg).initiator = c.initiator := by
  have hclose : ∀ d : TCPConnection,
      d.notePassiveClose.initiator = d.initiator := by
    intro d
    unfold notePassiveClose
    split
    · rfl
    · rfl
  have hmove : ∀ (d : TCPConnection) (edit : TCPSegment → TCPSegment),
      (d.moveFront edit).initiator = d.initiator := by
    intro d edit
    unfold moveFront
    split
    · rfl
    · rfl
  have hinformed : (c.informed seg).initiator = c.initiator := by
    unfold informed ackSender
    split
    · rfl
    · rfl
  by_cases hlen : seg.lengthInSequenceSpace > 0
  · rw [handle_of_occupies c seg hlen, hclose, reply_eq, hmove]
    exact hinformed
  · rw [handle_of_not_occupies c seg hlen, hclose]
    exact hinformed

/-- Only `connect` makes a connection the initiator. -/
theorem step_initiator
    (hop : op ≠ .connect) (hreset : c.resets op = false) :
    (c.step op).initiator = c.initiator := by
  cases op with
  | connect => exact absurd rfl hop
  | write data =>
      rw [step]
      cases hactive : c.active with
      | true => rw [write_of_active hactive]; rfl
      | false => rw [write_of_inactive hactive]
  | endInputStream =>
      rw [step]
      cases hactive : c.active with
      | true => rw [endInputStream_of_active hactive]; rfl
      | false => rw [endInputStream_of_inactive hactive]
  | tick ms =>
      rw [step]
      cases hactive : c.active with
      | true =>
          rw [resets, hactive, Bool.true_and, decide_eq_false_iff_not]
            at hreset
          rw [tick_of_active hactive, if_neg hreset]
          rfl
      | false => rw [tick_of_inactive hactive]
  | segmentReceived seg =>
      rw [step]
      cases hactive : c.active with
      | true =>
          rw [resets, hactive, Bool.true_and] at hreset
          rw [segmentReceived_of_active hactive hreset]
          exact handle_initiator _ seg
      | false => rw [segmentReceived_of_inactive hactive]
  | readInbound len => rfl

/-- Nothing is written and the stream is not ended before the connection has
sent or received a SYN. -/
def UsedOpen (c : TCPConnection) : Op → Prop
  | .write _ => c.initiator = true ∨ c.receiver.syn = true
  | .endInputStream => c.initiator = true ∨ c.receiver.syn = true
  | .connect => True
  | .tick _ => True
  | .segmentReceived _ => True
  | .readInbound _ => True

instance usedOpenDecidable (c : TCPConnection) :
    ∀ op, Decidable (c.UsedOpen op)
  | .write _ => inferInstanceAs (Decidable (_ ∨ _))
  | .endInputStream => inferInstanceAs (Decidable (_ ∨ _))
  | .connect => isTrue trivial
  | .tick _ => isTrue trivial
  | .segmentReceived _ => isTrue trivial
  | .readInbound _ => isTrue trivial

theorem Greeted.connect (h : Greeted c) : Greeted c.connect := by
  have hsyn := fillWindow_syn c.sender
  unfold TCPConnection.connect
  simp only
  split
  next hempty =>
    -- nothing was queued, so the SYN was sent before
    have hbefore : c.sender.syn = true := by
      by_contra hno
      have he := TCPSender.emission_syn (Bool.eq_false_of_not_eq_true hno)
      rw [← TCPSender.fillWindow_of_not_syn
        (Bool.eq_false_of_not_eq_true hno)] at he
      rw [he.segmentsOut] at hempty
      exact absurd hempty (by simp)
    exact iff_of_true hsyn (h.mp hbefore)
  next =>
    refine iff_of_true ?_ (Or.inl rfl)
    obtain ⟨out, hsender⟩ :=
      moveFront_sender { c with sender := c.sender.fillWindow } id
    show (moveFront { c with sender := c.sender.fillWindow } id).sender.syn =
      true
    rw [hsender]
    exact hsyn

theorem Greeted.handle
    {seg : TCPSegment} (h : Greeted c)
    (hack : seg.header.ack = true → c.sender.syn = true) :
    Greeted (c.handle seg) := by
  obtain ⟨out, hsender⟩ := c.handle_sender seg
  have hmono : c.receiver.syn = true →
      (c.receiver.segmentReceived seg).syn = true := by
    intro hheard
    by_cases htakes : c.receiver.Takes seg
    · exact TCPReceiver.segmentReceived_syn htakes
    · rw [TCPReceiver.segmentReceived_of_not_takes htakes]
      exact hheard
  rw [Greeted, handle_initiator, handle_receiver, hsender]
  show (run TCPSender.drivenStep c.sender (c.inboundOps seg)).syn = true ↔ _
  cases hsyn : c.sender.syn with
  | true =>
      refine iff_of_true ?_ ((h.mp hsyn).imp_right hmono)
      exact run_preserves (P := fun s : TCPSender => s.syn = true)
        (fun _ op hs => drivenStep_syn hs op) hsyn _
  | false =>
      obtain ⟨hpassive, hunheard⟩ :
          c.initiator = false ∧ c.receiver.syn = false := by
        have hno := (not_congr h).mp (by rw [hsyn]; decide)
        rw [not_or, Bool.not_eq_true, Bool.not_eq_true] at hno
        exact hno
      have hplain : seg.header.ack = false := by
        by_contra hflag
        have hsent := hack (Bool.eq_true_of_not_eq_false hflag)
        exact absurd (hsyn.symm.trans hsent) (by decide)
      rw [inboundOps, hplain, if_neg Bool.false_ne_true, List.nil_append]
      cases hflag : seg.header.syn with
      | true =>
          have hlen : seg.lengthInSequenceSpace > 0 := by
            rw [TCPSegment.lengthInSequenceSpace_eq, hflag, Bool.toNat_true]
            omega
          have htakes : c.receiver.Takes seg := by
            rw [TCPReceiver.Takes, hflag, hunheard]
            decide
          rw [if_pos ⟨hlen, opens_iff.mpr ⟨hflag, hplain, hpassive⟩⟩]
          exact iff_of_true (fillWindow_syn _)
            (Or.inr (TCPReceiver.segmentReceived_syn htakes))
      | false =>
          have hignored : ¬ c.receiver.Takes seg := by
            rw [TCPReceiver.Takes, hflag, hunheard]
            decide
          rw [if_neg, TCPReceiver.segmentReceived_of_not_takes hignored]
          · exact h
          · rintro ⟨-, hopens⟩
            exact absurd ((opens_iff.mp hopens).1.symm.trans hflag) (by decide)

theorem Greeted.step
    (h : Greeted c) (hopen : c.UsedOpen op)
    (hack : ∀ seg, op = .segmentReceived seg → seg.header.ack = true →
      c.sender.syn = true)
    (hreset : c.resets op = false) : Greeted (c.step op) := by
  -- a used connection has sent its SYN, and neither side of it is taken back
  have hused : (c.initiator = true ∨ c.receiver.syn = true) →
      (c.step op).initiator = c.initiator →
      (c.step op).receiver = c.receiver → Greeted (c.step op) := by
    intro hused hinitiator hreceiver
    rw [Greeted, hinitiator, hreceiver]
    exact iff_of_true (step_sender_syn (h.mpr hused) op) hused
  cases op with
  | connect => exact h.connect
  | write data =>
      refine hused hopen (step_initiator (by simp) rfl) ?_
      rw [TCPConnection.step]
      cases hactive : c.active with
      | true => rw [write_of_active hactive]; rfl
      | false => rw [write_of_inactive hactive]
  | endInputStream =>
      refine hused hopen (step_initiator (by simp) rfl) ?_
      rw [TCPConnection.step]
      cases hactive : c.active with
      | true => rw [endInputStream_of_active hactive]; rfl
      | false => rw [endInputStream_of_inactive hactive]
  | tick ms =>
      rw [TCPConnection.step]
      cases hactive : c.active with
      | true =>
          rw [resets, hactive, Bool.true_and, decide_eq_false_iff_not]
            at hreset
          rw [tick_of_active hactive, if_neg hreset, Greeted]
          show (c.sender.tick ms).syn = true ↔ _
          rw [(TCPSender.ticked_tick c.sender ms).sameSent.syn]
          exact h
      | false =>
          rw [tick_of_inactive hactive]
          exact h
  | segmentReceived seg =>
      rw [TCPConnection.step]
      cases hactive : c.active with
      | true =>
          rw [resets, hactive, Bool.true_and] at hreset
          rw [segmentReceived_of_active hactive hreset]
          have hnow : Greeted { c with timeSinceLastSegmentReceived := 0 } := h
          exact hnow.handle (hack seg rfl)
      | false =>
          rw [segmentReceived_of_inactive hactive]
          exact h
  | readInbound len => exact h

end Greeted

end TCPConnection

end Sponge
