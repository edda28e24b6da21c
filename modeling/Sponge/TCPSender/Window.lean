import Sponge.TCPSender.InFlight

/-!
# The peer's window

The sender keeps the remaining window in a 16-bit counter.  It is derived anew
from every acknowledgment of a sequence number that has been sent and then
only decreases, by exactly as much as the next sequence number grows.  So the
sum of the two is the end of the window that the peer has advertised, with a
window of zero treated as one, and no segment goes beyond it.
-/

namespace Sponge

namespace TCPSender

/-! ## Emissions within the window -/

/-- Emissions that have moved the next sequence number through the remaining
window of `s` and have kept the end of the window. -/
structure WithinWindow (s t : TCPSender) (new : List (ℕ × TCPSegment)) :
    Prop where
  created : t.created = s.created ++ new
  above : ∀ e ∈ new, s.nextSeqnoAbsolute < e.1 + e.2.lengthInSequenceSpace
  below : ∀ e ∈ new, e.1 + e.2.lengthInSequenceSpace ≤
    s.nextSeqnoAbsolute + s.recvWdnSz
  next_le : s.nextSeqnoAbsolute ≤ t.nextSeqnoAbsolute
  end_eq : t.nextSeqnoAbsolute + t.recvWdnSz =
    s.nextSeqnoAbsolute + s.recvWdnSz
  syn : t.syn = true
  windowUnderflow : t.windowUnderflow = s.windowUnderflow

theorem WithinWindow.emission
    {s r t : TCPSender} {segment : TCPSegment}
    {new : List (ℕ × TCPSegment)} (h : WithinWindow s r new)
    (he : Emission r segment t) :
    WithinWindow s t (new ++ [(r.nextSeqnoAbsolute, segment)]) := by
  have hwindow := he.window h.syn
  have hnext := he.next
  have hpos := he.positive
  have hle := h.next_le
  have hend := h.end_eq
  refine
    { created := by rw [he.created, h.created, List.append_assoc]
      above := ?_
      below := ?_
      next_le := by omega
      end_eq := by omega
      syn := he.syn
      windowUnderflow := by rw [he.windowUnderflow, h.windowUnderflow] }
  · refine List.forall_mem_append.mpr
      ⟨h.above, List.forall_mem_singleton.mpr ?_⟩
    simp only
    omega
  · refine List.forall_mem_append.mpr
      ⟨h.below, List.forall_mem_singleton.mpr ?_⟩
    simp only
    omega

theorem Emits.withinWindow
    {s t : TCPSender} (h : Emits s t) (hsyn : s.syn = true) :
    ∃ new, WithinWindow s t new := by
  refine Emits.preserves (P := fun t => ∃ new, WithinWindow s t new) ?_ h ?_
  · rintro r segment t he ⟨new, hnew⟩
    exact ⟨_, hnew.emission he⟩
  · exact ⟨[], (List.append_nil _).symm,
      fun _ hmem => absurd hmem List.not_mem_nil,
      fun _ hmem => absurd hmem List.not_mem_nil, le_rfl, rfl, hsyn, rfl⟩

/-- Without a window nothing is sent. -/
theorem WithinWindow.eq_nil
    {s t : TCPSender} {new : List (ℕ × TCPSegment)}
    (h : WithinWindow s t new) (hzero : s.recvWdnSz = 0) :
    new = [] ∧ t.recvWdnSz = 0 := by
  have hend := h.end_eq
  have hle := h.next_le
  refine ⟨List.eq_nil_iff_forall_not_mem.mpr fun e hmem => ?_, by omega⟩
  have habove := h.above e hmem
  have hbelow := h.below e hmem
  omega

/-! ## The most recent acknowledgment -/

/-- A sender together with the most recent acknowledgment of a sequence number
that had been sent when it arrived. -/
structure Watched where
  sender : TCPSender
  lastAck : Option (ℕ × UInt16)

/-- The acknowledgment is of a sequence number that has been sent. -/
def noteAck (s : Watched) : Op → Option (ℕ × UInt16)
  | .ackReceived ackno windowSize =>
      if s.sender.absoluteAckno ackno ≤ s.sender.nextSeqnoAbsolute then
        some (s.sender.absoluteAckno ackno, windowSize)
      else s.lastAck
  | .write _ => s.lastAck
  | .endInput => s.lastAck
  | .fillWindow => s.lastAck
  | .tick _ => s.lastAck
  | .sendEmptySegment => s.lastAck

def watchedStep (s : Watched) (op : Op) : Watched where
  sender := s.sender.step op
  lastAck := noteAck s op

/-- The end of the window of the most recent acknowledgment. -/
def Watched.allowance (s : Watched) : Option ℕ :=
  s.lastAck.map fun ack => ack.1 + max ack.2.toNat 1

/-- The operation runs `fill_window`. -/
def FillsWindow (s : TCPSender) : Op → Prop
  | .fillWindow => True
  | .ackReceived ackno windowSize =>
      s.absoluteAckno ackno ≤ s.nextSeqnoAbsolute ∧
        s.nextSeqnoAbsolute ≤ add64 (s.absoluteAckno ackno) windowSize.toNat
  | .write _ => False
  | .endInput => False
  | .tick _ => False
  | .sendEmptySegment => False

/-- What holds after the SYN has been sent: the remaining window reaches at
most to the end of the last advertised one, and without an acknowledgment
there is none. -/
structure Respects (s : Watched) : Prop where
  syn : s.sender.syn = true
  noUnderflow : s.sender.windowUnderflow = false
  window : s.sender.recvWdnSz = 0 ∨
    ∃ limit, s.allowance = some limit ∧
      s.sender.nextSeqnoAbsolute + s.sender.recvWdnSz ≤ limit

/-- What one step from `s` to `t` creates fits into the window. -/
structure StepWithin (s t : Watched) (new : List (ℕ × TCPSegment)) :
    Prop where
  created : t.sender.created = s.sender.created ++ new
  within : ∀ e ∈ new, ∃ limit, t.allowance = some limit ∧
    e.1 + e.2.lengthInSequenceSpace ≤ limit

section Steps

variable {s : Watched}

/-- Emissions from a state that respects the window. -/
theorem Respects.emits
    {t : TCPSender} (h : Respects s) (he : Emits s.sender t) :
    Respects ⟨t, s.lastAck⟩ ∧
      ∃ new, StepWithin s ⟨t, s.lastAck⟩ new := by
  obtain ⟨new, hnew⟩ := he.withinWindow h.syn
  have hflow : t.windowUnderflow = false :=
    hnew.windowUnderflow.trans h.noUnderflow
  rcases h.window with hzero | ⟨limit, hlimit, hle⟩
  · obtain ⟨rfl, hzero'⟩ := hnew.eq_nil hzero
    exact ⟨⟨hnew.syn, hflow, Or.inl hzero'⟩, [], hnew.created,
      fun _ hmem => absurd hmem List.not_mem_nil⟩
  · have hle' : t.nextSeqnoAbsolute + t.recvWdnSz ≤ limit := by
      rw [hnew.end_eq]
      exact hle
    refine ⟨⟨hnew.syn, hflow, Or.inr ⟨limit, hlimit, hle'⟩⟩, new,
      hnew.created, fun e hmem => ?_⟩
    exact ⟨limit, hlimit, (hnew.below e hmem).trans hle⟩

/-- A step that sends nothing and leaves the window alone. -/
theorem Respects.sameSent
    {t : TCPSender} (h : Respects s) (hsyn : t.syn = s.sender.syn)
    (hflow : t.windowUnderflow = s.sender.windowUnderflow)
    (hcreated : t.created = s.sender.created)
    (hnext : t.nextSeqnoAbsolute = s.sender.nextSeqnoAbsolute)
    (hwindow : t.recvWdnSz = s.sender.recvWdnSz) :
    Respects ⟨t, s.lastAck⟩ ∧
      ∃ new, StepWithin s ⟨t, s.lastAck⟩ new := by
  refine ⟨⟨hsyn.trans h.syn, hflow.trans h.noUnderflow, ?_⟩, [], ?_,
    fun _ hmem => absurd hmem List.not_mem_nil⟩
  · simp only [hwindow, hnext]
    exact h.window
  · simpa using hcreated

theorem Respects.ackReceived
    (h : Respects s) (ackno : WrappingInt32) (windowSize : UInt16) :
    Respects (watchedStep s (.ackReceived ackno windowSize)) ∧
      ∃ new, StepWithin s (watchedStep s (.ackReceived ackno windowSize))
        new := by
  rcases ackReceived_cases s.sender ackno windowSize with
    ⟨hbeyond, heq⟩ | ⟨hsent, -, heq⟩ | ⟨hsent, hroom, heq⟩
  · have hstep : watchedStep s (.ackReceived ackno windowSize) =
        ⟨s.sender, s.lastAck⟩ := by
      simp only [watchedStep, noteAck, TCPSender.step, heq,
        if_neg (not_le.mpr hbeyond)]
    rw [hstep]
    exact h.sameSent rfl rfl rfl rfl rfl
  · have hstep : watchedStep s (.ackReceived ackno windowSize) =
        ⟨s.sender.closeWindow,
          some (s.sender.absoluteAckno ackno, windowSize)⟩ := by
      simp only [watchedStep, noteAck, TCPSender.step, heq, if_pos hsent]
    rw [hstep]
    exact ⟨⟨h.syn, h.noUnderflow, Or.inl rfl⟩, [],
      (List.append_nil _).symm, fun _ hmem => absurd hmem List.not_mem_nil⟩
  · have hstep : watchedStep s (.ackReceived ackno windowSize) =
        ⟨(s.sender.applyAck (s.sender.absoluteAckno ackno)
            windowSize).fillWindow,
          some (s.sender.absoluteAckno ackno, windowSize)⟩ := by
      simp only [watchedStep, noteAck, TCPSender.step, heq, if_pos hsent]
    have happlied := applied_applyAck s.sender
      (s.sender.absoluteAckno ackno) windowSize
    have hwindow := applied_window hsent hroom
    have hrespects : Respects
        ⟨s.sender.applyAck (s.sender.absoluteAckno ackno) windowSize,
          some (s.sender.absoluteAckno ackno, windowSize)⟩ := by
      refine ⟨happlied.sameSent.syn.trans h.syn,
        happlied.sameSent.windowUnderflow.trans h.noUnderflow,
        Or.inr ⟨_, rfl, ?_⟩⟩
      simp only [happlied.sameSent.next]
      omega
    obtain ⟨hafter, new, hnew⟩ := hrespects.emits (fillWindow_emits _)
    rw [hstep]
    refine ⟨hafter, new, ?_, hnew.within⟩
    rw [hnew.created, happlied.sameSent.created]

theorem Respects.step (h : Respects s) (op : Op) :
    Respects (watchedStep s op) ∧
      ∃ new, StepWithin s (watchedStep s op) new := by
  cases op with
  | write data => exact h.sameSent rfl rfl rfl rfl rfl
  | endInput => exact h.sameSent rfl rfl rfl rfl rfl
  | fillWindow => exact h.emits (fillWindow_emits s.sender)
  | ackReceived ackno windowSize => exact h.ackReceived ackno windowSize
  | tick ms =>
      have hticked := ticked_tick s.sender ms
      exact h.sameSent hticked.sameSent.syn hticked.sameSent.windowUnderflow
        hticked.sameSent.created hticked.sameSent.next hticked.window
  | sendEmptySegment => exact h.sameSent rfl rfl rfl rfl rfl

/-- After `fill_window` the window is used up or everything has been sent. -/
theorem Respects.drained
    (h : Respects s) {op : Op} (hop : FillsWindow s.sender op) :
    Drained (s.sender.step op) := by
  cases op with
  | fillWindow => exact (fillWindow_spec h.syn).2
  | ackReceived ackno windowSize =>
      obtain ⟨hsent, hroom⟩ := hop
      rcases ackReceived_cases s.sender ackno windowSize with
        ⟨hbeyond, -⟩ | ⟨-, hclosed, -⟩ | ⟨-, -, heq⟩
      · omega
      · omega
      · have happlied := applied_applyAck s.sender
          (s.sender.absoluteAckno ackno) windowSize
        rw [TCPSender.step, heq]
        exact (fillWindow_spec (happlied.sameSent.syn.trans h.syn)).2
  | write data => exact absurd hop id
  | endInput => exact absurd hop id
  | tick ms => exact absurd hop id
  | sendEmptySegment => exact absurd hop id

end Steps

/-! ## Runs -/

theorem respects_synSent
    (capacity : ℕ) (retxTimeout : UInt16) (fixedIsn : Option WrappingInt32)
    (randomIsn : UInt32) :
    Respects ⟨synSent capacity retxTimeout fixedIsn randomIsn, none⟩ := by
  obtain ⟨segment, he⟩ :=
    emission_synSent capacity retxTimeout fixedIsn randomIsn
  exact ⟨he.syn, he.windowUnderflow, Or.inl (he.windowSyn rfl)⟩

/-- Only an acknowledgment makes the sender create a segment after the
SYN. -/
theorem Respects.created_of_no_ack
    {s : Watched} (h : Respects s) (op : Op)
    (hnone : (watchedStep s op).lastAck = none) :
    s.lastAck = none ∧
      (watchedStep s op).sender.created = s.sender.created := by
  obtain ⟨-, new, hnew⟩ := h.step op
  have hnil : new = [] := by
    refine List.eq_nil_iff_forall_not_mem.mpr fun e hmem => ?_
    obtain ⟨limit, hlimit, -⟩ := hnew.within e hmem
    rw [Watched.allowance, hnone] at hlimit
    exact absurd hlimit (by simp)
  refine ⟨?_, by rw [hnew.created, hnil, List.append_nil]⟩
  cases op with
  | ackReceived ackno windowSize =>
      simp only [watchedStep, noteAck] at hnone
      split at hnone
      · exact absurd hnone (by simp)
      · exact hnone
  | write data => exact hnone
  | endInput => exact hnone
  | fillWindow => exact hnone
  | tick ms => exact hnone
  | sendEmptySegment => exact hnone

/-- After the first `fill_window` there is the SYN and nothing else. -/
theorem created_synSent
    (capacity : ℕ) (retxTimeout : UInt16) (fixedIsn : Option WrappingInt32)
    (randomIsn : UInt32) :
    ∃ segment, (synSent capacity retxTimeout fixedIsn randomIsn).created =
        [(0, segment)] ∧
      segment.header.syn = true ∧ segment.payload.str = [] ∧
      segment.header.fin = false := by
  obtain ⟨segment, he⟩ :=
    emission_synSent capacity retxTimeout fixedIsn randomIsn
  exact ⟨segment, he.created, he.synFirst, he.synAlone he.synFirst⟩

/-- The invariant of a run: the window is respected, and as long as there is
no acknowledgment the segments are those of the beginning. -/
theorem run_respects
    (start : Watched) (h : Respects start) (ops : List Op) :
    Respects (run watchedStep start ops) ∧
      ((run watchedStep start ops).lastAck = none →
        (run watchedStep start ops).sender.created =
          start.sender.created) := by
  refine run_preserves
    (P := fun s => Respects s ∧
      (s.lastAck = none → s.sender.created = start.sender.created))
    ?_ ⟨h, fun _ => rfl⟩ ops
  rintro s op ⟨hs, hcreated⟩
  refine ⟨(hs.step op).1, fun hnone => ?_⟩
  obtain ⟨hbefore, heq⟩ := hs.created_of_no_ack op hnone
  rw [heq, hcreated hbefore]

theorem run_finNoted
    (start : Watched) (h : FinNoted start.sender) (ops : List Op) :
    FinNoted (run watchedStep start ops).sender :=
  run_preserves (P := fun s : Watched => FinNoted s.sender)
    (fun _ op hs => FinNoted.step hs op) h ops

/-- The peer's window is respected and fully used.  Whatever happens after
the SYN, every segment that a step creates ends within the window of the most
recent acknowledgment, before the first acknowledgment there is nothing but
the SYN, the counter of the remaining window does not underflow, and when
`fill_window` returns, that counter is zero or the stream is empty and its
end, if it has one, has been sent. -/
theorem run_window_respected_and_used
    (capacity : ℕ) (retxTimeout : UInt16) (fixedIsn : Option WrappingInt32)
    (randomIsn : UInt32) (ops : List Op) (op : Op) :
    let start : Watched :=
      ⟨synSent capacity retxTimeout fixedIsn randomIsn, none⟩
    let s := run watchedStep start ops
    let t := watchedStep s op
    (∃ new, StepWithin s t new) ∧
      (t.lastAck = none → ∃ segment, t.sender.created = [(0, segment)] ∧
        segment.header.syn = true ∧ segment.payload.str = [] ∧
        segment.header.fin = false) ∧
      t.sender.windowUnderflow = false ∧
      (FillsWindow s.sender op →
        t.sender.recvWdnSz = 0 ∨
          (t.sender.streamIn.bufferSize = 0 ∧
            (t.sender.streamIn.inputEnded = true →
              ∃ e ∈ t.sender.created, e.2.header.fin = true))) := by
  intro start s t
  obtain ⟨hs, hcreated⟩ := run_respects start
    (respects_synSent capacity retxTimeout fixedIsn randomIsn) ops
  obtain ⟨ht, hwithin⟩ := hs.step op
  refine ⟨hwithin, ?_, ht.noUnderflow, ?_⟩
  · intro hnone
    obtain ⟨hbefore, heq⟩ := hs.created_of_no_ack op hnone
    obtain ⟨segment, hsyn, hrest⟩ :=
      created_synSent capacity retxTimeout fixedIsn randomIsn
    exact ⟨segment, heq.trans ((hcreated hbefore).trans hsyn), hrest⟩
  · intro hfills
    have hnoted : FinNoted t.sender := by
      have hstart : FinNoted start.sender :=
        (finNoted_new capacity retxTimeout fixedIsn randomIsn).step .fillWindow
      exact (run_finNoted start hstart ops).step op
    rcases hs.drained hfills with hzero | ⟨hempty, hfin⟩
    · exact Or.inl hzero
    · exact Or.inr ⟨hempty, fun hended => hnoted.mp (hfin hended)⟩

end TCPSender

end Sponge
