import Sponge.EndToEnd.Model
import Sponge.TCPConnection.Quiet

/-!
# What a connection puts on the network

A connection completes the headers of the segments that its sender has made:
it sets the acknowledgment and the window and, when it gives up, the RST flag.
The sequence number, the flags SYN and FIN and the payload travel as the
sender has made them.

So everything on the network can be traced back to the list of segments that
the sender has created, or is an empty segment at a sequence number that the
sender had reached.  A segment with the RST flag is a sign that the connection
itself has failed.
-/

namespace Sponge

namespace TCPSender

/-! ## Segments that a sender has made -/

/-- The sender has made the segment, out of its stream or without any
content. -/
def Made (s : TCPSender) (seg : TCPSegment) : Prop :=
  (∃ n, (n, seg) ∈ s.created) ∨
    ∃ n ≤ s.nextSeqnoAbsolute,
      seg = { header := { ack := true, seqno := wrap n s.isn } }

/-- What a step never takes back. -/
structure Extends (s t : TCPSender) : Prop where
  isn : t.isn = s.isn
  next : s.nextSeqnoAbsolute ≤ t.nextSeqnoAbsolute
  created : s.created <+: t.created
  popped : s.streamIn.popped <+: t.streamIn.popped
  finSent : s.finSent = true → t.finSent = true

/-- The header is as a new segment has it, without options, an acknowledgment
or a reset. -/
def Plain (seg : TCPSegment) : Prop := Unflagged seg ∧ seg.header.doff = 5

/-- The queue holds segments that the sender has made, and the headers of the
created segments are plain. -/
structure Stocked (s : TCPSender) : Prop where
  tracked : Tracked s
  queue : ∀ seg ∈ s.segmentsOut, s.Made seg
  plain : ∀ e ∈ s.created, Plain e.2

section Made

variable {s t r : TCPSender} {seg : TCPSegment}

theorem Extends.refl (s : TCPSender) : Extends s s :=
  ⟨rfl, le_rfl, List.prefix_rfl, List.prefix_rfl, id⟩

theorem Extends.trans (h : Extends s t) (h' : Extends t r) :
    Extends s r where
  isn := h'.isn.trans h.isn
  next := h.next.trans h'.next
  created := h.created.trans h'.created
  popped := h.popped.trans h'.popped
  finSent := h'.finSent ∘ h.finSent

theorem Emits.extends (h : Emits s t) : Extends s t := by
  obtain ⟨new, hcreated, -, -, hpopped⟩ := h.new
  exact
    { isn := h.isn
      next := h.next_le
      created := hcreated ▸ List.prefix_append _ _
      popped := hpopped ▸ List.prefix_append _ _
      finSent := h.finSent }

theorem Op.onStream_popped (op : Op) (bs : ByteStream) :
    (op.onStream bs).popped = bs.popped := by
  cases op with
  | write data => exact bs.write_popped data
  | endInput => rfl
  | fillWindow => rfl
  | ackReceived ackno windowSize => rfl
  | tick ms => rfl
  | sendEmptySegment => rfl

theorem Prepares.extends {op : Op} (h : Prepares s op t) : Extends s t where
  isn := h.isn
  next := h.next.ge
  created := h.created ▸ List.prefix_rfl
  popped := by rw [h.streamIn, op.onStream_popped]
  finSent := fun hfin => h.finSent.trans hfin

theorem step_extends (s : TCPSender) (op : Op) : Extends s (s.step op) := by
  obtain ⟨m, hm, hemits⟩ := step_emits s op
  exact hm.extends.trans hemits.extends

theorem drivenStep_extends (s : TCPSender) (op : Op) :
    Extends s (s.drivenStep op) := by
  obtain ⟨m, hm, hemits⟩ := drivenStep_emits s op
  exact hm.extends.trans hemits.extends

theorem Made.extend (h : s.Made seg) (ht : Extends s t) : t.Made seg := by
  rcases h with ⟨n, hmem⟩ | ⟨n, hle, hseg⟩
  · exact Or.inl ⟨n, ht.created.subset hmem⟩
  · refine Or.inr ⟨n, hle.trans ht.next, ?_⟩
    rw [ht.isn]
    exact hseg

theorem Plain.setFin (h : Plain seg) : Plain seg.setFin := h

theorem Plain.prepareSegment (h : Plain seg) (s : TCPSender) :
    Plain (s.prepareSegment seg).2 := by
  refine ⟨h.1.prepareSegment s, ?_⟩
  unfold TCPSender.prepareSegment piggybackFin
  split
  · exact h.2
  · exact h.2

/-- Whatever is sent in a step, `fill_window` sends it. -/
theorem plain_fillWindow (h : ∀ e ∈ s.created, Plain e.2) :
    ∀ e ∈ s.fillWindow.created, Plain e.2 := by
  refine fillWindow_segments_rule
    (P := fun r => ∀ e ∈ r.created, Plain e.2) (K := Plain)
    ?_ (fun _ hp => hp.setFin) (fun s _ hp => hp.prepareSegment s) ?_
    ⟨⟨rfl, rfl⟩, rfl⟩ ⟨⟨rfl, rfl⟩, rfl⟩ h
  · rintro r t ⟨_, _, _, _, _, _, rfl⟩ hr
    exact hr
  · intro r segment hsegment hr
    rw [sendSegment_eq]
    exact List.forall_mem_append.mpr
      ⟨hr, List.forall_mem_singleton.mpr hsegment⟩

theorem plain_step (h : ∀ e ∈ s.created, Plain e.2) (op : Op) :
    ∀ e ∈ (s.step op).created, Plain e.2 := by
  cases op with
  | write data => exact h
  | endInput => exact h
  | fillWindow => exact plain_fillWindow h
  | ackReceived ackno windowSize =>
      apply ackReceived_rule
        (P := fun r => ∀ e ∈ r.created, Plain e.2) h h
      intro _
      apply plain_fillWindow
      rw [(applied_applyAck s _ windowSize).sameSent.created]
      exact h
  | tick ms =>
      rw [step, (ticked_tick s ms).sameSent.created]
      exact h
  | sendEmptySegment => exact h

theorem stocked_new
    (capacity : ℕ) (retxTimeout : UInt16) (fixedIsn : Option WrappingInt32)
    (randomIsn : UInt32) :
    Stocked (new capacity retxTimeout fixedIsn randomIsn) where
  tracked := tracked_new capacity retxTimeout fixedIsn randomIsn
  queue := List.forall_mem_nil _
  plain := List.forall_mem_nil _

theorem Stocked.step (h : Stocked s) (op : Op) : Stocked (s.step op) where
  tracked := h.tracked.step op
  queue := by
    intro seg hmem
    rcases System.mem_segmentsOut_of_step h.tracked op hmem with
      (hold | hcreated) | rfl
    · exact (h.queue seg hold).extend (step_extends s op)
    · exact Or.inl hcreated
    · have hext := step_extends s op
      refine Or.inr ⟨s.nextSeqnoAbsolute, hext.next, ?_⟩
      rw [hext.isn]
      rfl
  plain := plain_step h.plain op

theorem Stocked.drivenStep (h : Stocked s) (op : Op) :
    Stocked (s.drivenStep op) := by
  cases op with
  | write data => exact (h.step (.write data)).step .fillWindow
  | endInput => exact (h.step .endInput).step .fillWindow
  | fillWindow => exact h.step .fillWindow
  | ackReceived ackno windowSize => exact h.step (.ackReceived ackno windowSize)
  | tick ms => exact h.step (.tick ms)
  | sendEmptySegment => exact h.step .sendEmptySegment

/-- Segments may be taken from the queue, and the stream may fail. -/
theorem Stocked.mute
    (h : Stocked s) {out : List TCPSegment} (hout : out ⊆ s.segmentsOut)
    (error : Bool) : Stocked (s.mute out error) where
  tracked := h.tracked.mute out error
  queue := fun seg hmem => h.queue seg (hout hmem)
  plain := h.plain

theorem Stocked.made_rst (h : Stocked s) (hmade : s.Made seg) :
    seg.header.rst = false := by
  rcases hmade with ⟨n, hmem⟩ | ⟨n, -, rfl⟩
  · exact (h.plain _ hmem).1.2
  · rfl

theorem Stocked.made_doff (h : Stocked s) (hmade : s.Made seg) :
    seg.header.doff = 5 := by
  rcases hmade with ⟨n, hmem⟩ | ⟨n, -, rfl⟩
  · exact (h.plain _ hmem).2
  · rfl

end Made

end TCPSender

namespace TCPConnection

open TCPSender (Made Extends Stocked)

/-! ## Segments that a connection has sent -/

/-- The two segments have the same content; they may differ in what the
connection completes. -/
structure SameContent (made seg : TCPSegment) : Prop where
  seqno : seg.header.seqno = made.header.seqno
  syn : seg.header.syn = made.header.syn
  fin : seg.header.fin = made.header.fin
  doff : seg.header.doff = made.header.doff
  payload : seg.payload = made.payload

/-- Everything that the connection has sent was made by its sender, and it
sends a reset only when it has failed. -/
structure Outbound (c : TCPConnection) : Prop where
  stocked : c.sender.Stocked
  sent : ∀ seg ∈ c.segmentsOut,
    ∃ made, c.sender.Made made ∧ SameContent made seg
  reset : ∀ seg ∈ c.segmentsOut, seg.header.rst = true →
    c.sender.streamIn.error = true

section Outbound

variable {c : TCPConnection} {seg : TCPSegment}

theorem SameContent.length {made : TCPSegment} (h : SameContent made seg) :
    seg.lengthInSequenceSpace = made.lengthInSequenceSpace := by
  rw [TCPSegment.lengthInSequenceSpace, h.payload, h.syn, h.fin]
  rfl

theorem sameContent_noteAckno (c : TCPConnection) (seg : TCPSegment) :
    SameContent seg (c.noteAckno seg) ∧
      (c.noteAckno seg).header.rst = seg.header.rst := by
  unfold noteAckno
  split
  · exact ⟨⟨rfl, rfl, rfl, rfl, rfl⟩, rfl⟩
  · exact ⟨⟨rfl, rfl, rfl, rfl, rfl⟩, rfl⟩

theorem sameContent_acknowledge (c : TCPConnection) (seg : TCPSegment) :
    SameContent seg (c.acknowledge seg) ∧
      (c.acknowledge seg).header.rst = seg.header.rst := by
  unfold acknowledge
  split
  · exact ⟨⟨rfl, rfl, rfl, rfl, rfl⟩, rfl⟩
  · exact ⟨⟨rfl, rfl, rfl, rfl, rfl⟩, rfl⟩

theorem outbound_new (cfg : TCPConfig) (randomIsn : UInt32) :
    Outbound (new cfg randomIsn) where
  stocked := TCPSender.stocked_new _ _ _ _
  sent := List.forall_mem_nil _
  reset := List.forall_mem_nil _

/-- Another sender that has made the same segments and more. -/
theorem Outbound.withSender
    (h : Outbound c) {s : TCPSender} (hs : s.Stocked)
    (hext : Extends c.sender s)
    (herror : s.streamIn.error = c.sender.streamIn.error) :
    Outbound { c with sender := s } where
  stocked := hs
  sent := by
    intro seg hmem
    obtain ⟨made, hmade, hsame⟩ := h.sent seg hmem
    exact ⟨made, hmade.extend hext, hsame⟩
  reset := by
    intro seg hmem hrst
    exact herror.trans (h.reset seg hmem hrst)

theorem Outbound.drivenStep (h : Outbound c) (op : TCPSender.Op) :
    Outbound { c with sender := c.sender.drivenStep op } :=
  h.withSender (h.stocked.drivenStep op) (TCPSender.drivenStep_extends _ op)
    (TCPSender.drivenStep_error _ op)

/-- Nothing depends on the receiver, on the clock and on the other flags. -/
theorem Outbound.congr
    {d : TCPConnection} (h : Outbound c) (hsender : d.sender = c.sender)
    (hout : d.segmentsOut = c.segmentsOut) : Outbound d where
  stocked := hsender ▸ h.stocked
  sent := by
    rw [hsender, hout]
    exact h.sent
  reset := by
    rw [hsender, hout]
    exact h.reset

theorem Outbound.flushBuffer (h : Outbound c) : Outbound c.flushBuffer where
  stocked := h.stocked.mute (List.nil_subset _) _
  sent := by
    refine List.forall_mem_append.mpr ⟨h.sent, fun seg hmem => ?_⟩
    obtain ⟨made, hmade, rfl⟩ := List.mem_map.mp hmem
    exact ⟨made, h.stocked.queue made hmade, (sameContent_acknowledge c made).1⟩
  reset := by
    refine List.forall_mem_append.mpr ⟨h.reset, fun seg hmem hrst => ?_⟩
    obtain ⟨made, hmade, rfl⟩ := List.mem_map.mp hmem
    rw [(sameContent_acknowledge c made).2,
      h.stocked.made_rst (h.stocked.queue made hmade)] at hrst
    exact absurd hrst Bool.false_ne_true

/-- An edit of the first segment in the queue may set the RST flag only if the
connection has failed. -/
theorem Outbound.moveFront
    (h : Outbound c) {edit : TCPSegment → TCPSegment}
    (hedit : ∀ seg, SameContent seg (edit seg))
    (hrst : ∀ seg, (edit seg).header.rst = true →
      seg.header.rst = true ∨ c.sender.streamIn.error = true) :
    Outbound (c.moveFront edit) := by
  unfold TCPConnection.moveFront
  split
  next made rest hqueue =>
    have hmade : c.sender.Made made :=
      h.stocked.queue made (by rw [hqueue]; exact List.mem_cons_self)
    refine ⟨h.stocked.mute ?_ _, ?_, ?_⟩
    · rw [hqueue]
      exact List.subset_cons_self made rest
    · exact List.forall_mem_append.mpr ⟨h.sent,
        List.forall_mem_singleton.mpr ⟨made, hmade, hedit made⟩⟩
    · refine List.forall_mem_append.mpr ⟨h.reset,
        List.forall_mem_singleton.mpr fun hreset => ?_⟩
      rcases hrst made hreset with hplain | herror
      · rw [h.stocked.made_rst hmade] at hplain
        exact absurd hplain Bool.false_ne_true
      · exact herror
  · exact h

theorem sameContent_completed (c : TCPConnection) (seg : TCPSegment) :
    SameContent seg (c.completed seg) :=
  ⟨(sameContent_noteAckno c seg).1.seqno, (sameContent_noteAckno c seg).1.syn,
    (sameContent_noteAckno c seg).1.fin, (sameContent_noteAckno c seg).1.doff,
    (sameContent_noteAckno c seg).1.payload⟩

theorem Outbound.reply (h : Outbound c) (seg : TCPSegment) :
    Outbound (c.reply seg) := by
  rw [reply_eq]
  apply Outbound.moveFront
  · unfold answering
    split
    · exact h.drivenStep .fillWindow
    · exact h.drivenStep .sendEmptySegment
  · exact sameContent_completed c
  · intro made hrst
    have hsame : (c.completed made).header.rst = made.header.rst :=
      (sameContent_noteAckno c made).2
    exact Or.inl (hsame.symm.trans hrst)

theorem Outbound.notePassiveClose (h : Outbound c) :
    Outbound c.notePassiveClose :=
  h.congr c.notePassiveClose_sender c.notePassiveClose_segmentsOut

theorem Outbound.informed (h : Outbound c) (seg : TCPSegment) :
    Outbound (c.informed seg) := by
  have hreceiver :
      Outbound { c with receiver := c.receiver.segmentReceived seg } :=
    h.congr rfl rfl
  unfold TCPConnection.informed ackSender
  split
  · exact hreceiver.drivenStep
      (.ackReceived seg.header.ackno seg.header.win)
  · exact hreceiver

theorem Outbound.handle (h : Outbound c) (seg : TCPSegment) :
    Outbound (c.handle seg) := by
  by_cases hlen : seg.lengthInSequenceSpace > 0
  · rw [handle_of_occupies c seg hlen]
    exact ((h.informed seg).reply seg).notePassiveClose
  · rw [handle_of_not_occupies c seg hlen]
    exact (h.informed seg).flushBuffer.notePassiveClose

theorem Outbound.setErrors (h : Outbound c) : Outbound c.setErrors where
  stocked := h.stocked.mute (List.Subset.refl _) true
  sent := h.sent
  reset := fun _ _ _ => rfl

theorem Outbound.uncleanShutdown (h : Outbound c) :
    Outbound c.uncleanShutdown := by
  have hedit : ∀ (d : TCPConnection) (seg : TCPSegment), SameContent seg
      { d.noteAckno seg with
        header := { (d.noteAckno seg).header with rst := true } } := by
    intro d seg
    obtain ⟨hsame, -⟩ := sameContent_noteAckno d seg
    exact ⟨hsame.seqno, hsame.syn, hsame.fin, hsame.doff, hsame.payload⟩
  unfold TCPConnection.uncleanShutdown
  by_cases hempty : c.setErrors.sender.segmentsOut.isEmpty = true
  · simp only [if_pos hempty]
    exact (h.setErrors.drivenStep .sendEmptySegment).moveFront
      (hedit _) fun _ _ => Or.inr rfl
  · simp only [if_neg hempty]
    exact h.setErrors.moveFront (hedit _) fun _ _ => Or.inr rfl

theorem Outbound.tick (h : Outbound c) (ms : ℕ) : Outbound (c.tick ms) := by
  cases hactive : c.active with
  | true =>
      have hclock : Outbound (c.clock ms) :=
        (h.drivenStep (.tick ms)).congr rfl rfl
      rw [tick_of_active hactive]
      split
      · exact hclock.uncleanShutdown.flushBuffer
      · exact hclock.flushBuffer
  | false =>
      rw [tick_of_inactive hactive]
      exact h

theorem Outbound.connect (h : Outbound c) : Outbound c.connect := by
  have hfilled := h.drivenStep .fillWindow
  unfold TCPConnection.connect
  simp only
  split
  · exact hfilled
  · have hmoved : Outbound
        (TCPConnection.moveFront
          { c with sender := c.sender.drivenStep .fillWindow } id) :=
      hfilled.moveFront (fun _ => ⟨rfl, rfl, rfl, rfl, rfl⟩) fun _ => Or.inl
    exact hmoved.congr rfl rfl

/-- Every operation keeps the account of what has been sent. -/
theorem Outbound.step (h : Outbound c) (op : Op) : Outbound (c.step op) := by
  cases op with
  | connect => exact h.connect
  | write data =>
      rw [TCPConnection.step]
      cases hactive : c.active with
      | true =>
          rw [write_of_active hactive]
          exact (h.drivenStep (.write data)).flushBuffer
      | false =>
          rw [write_of_inactive hactive]
          exact h
  | endInputStream =>
      rw [TCPConnection.step]
      cases hactive : c.active with
      | true =>
          rw [endInputStream_of_active hactive]
          exact (h.drivenStep .endInput).flushBuffer
      | false =>
          rw [endInputStream_of_inactive hactive]
          exact h
  | tick ms => exact h.tick ms
  | segmentReceived seg =>
      have hnow : Outbound { c with timeSinceLastSegmentReceived := 0 } :=
        h.congr rfl rfl
      rw [TCPConnection.step]
      cases hactive : c.active with
      | true =>
          cases hrst : seg.header.rst with
          | true =>
              rw [segmentReceived_of_rst hactive hrst]
              exact hnow.setErrors
          | false =>
              rw [segmentReceived_of_active hactive hrst]
              exact hnow.handle seg
      | false =>
          rw [segmentReceived_of_inactive hactive]
          exact h
  | readInbound len => exact h.congr rfl rfl

end Outbound

end TCPConnection

end Sponge
