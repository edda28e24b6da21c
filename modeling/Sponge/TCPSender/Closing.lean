import Sponge.TCPSender.Backlog
import Sponge.TCPSender.Segmentation

/-!
# The end of the outgoing stream

The FIN is sent when the stream has ended, everything before it has been sent
and the window has room.  This module follows a driven sender up to that point
and beyond it: as long as the ended stream accepts no more bytes, nothing is
created after the FIN, and as long as no acknowledgment closes the window
before the FIN is sent when nothing is in flight, an idle sender at the end of
its stream has sent the FIN.
-/

namespace Sponge

namespace TCPSender

/-- Once its input has ended, the stream accepts nothing. -/
def EndRespected (s : TCPSender) : Op → Prop
  | .write data =>
      s.streamIn.inputEnded = true → (s.streamIn.write data).1 = 0
  | .endInput => True
  | .fillWindow => True
  | .ackReceived _ _ => True
  | .tick _ => True
  | .sendEmptySegment => True

/-- Before the FIN is sent, no acknowledgment closes the window when nothing
is in flight. -/
def KeepsFin (s : TCPSender) : Op → Prop
  | .ackReceived ackno windowSize =>
      ¬ (s.syn = true ∧ s.finSent = false ∧ s.bytesInFlight = 0 ∧
        ClosesWindow s ackno windowSize)
  | .write _ => True
  | .endInput => True
  | .fillWindow => True
  | .tick _ => True
  | .sendEmptySegment => True

/-- What holds throughout a run of a driven sender whose ended stream accepts
nothing. -/
structure Orderly (s : TCPSender) : Prop where
  segmented : Segmented s
  fresh : s.syn = false → s.recvWdnSz = 0 ∧ s.streamIn.bufferSize = 0 ∧
    s.streamIn.inputEnded = false
  drained : s.syn = true → Drained s

/-- As long as the FIN has not been sent, an idle sender has a window. -/
def FinReachable (s : TCPSender) : Prop :=
  s.syn = true → s.finSent = false → WindowOpen s

/-- Nothing is created after the FIN. -/
def FinKept (s t : TCPSender) : Prop :=
  s.finSent = true →
    t.finSent = true ∧ t.created = s.created ∧
      t.nextSeqnoAbsolute = s.nextSeqnoAbsolute

/-! ## What a step of a driven sender does to its stream -/

section DrivenStep

variable {s t : TCPSender}

/-- Also the step of a driven sender has two parts. -/
theorem drivenStep_emits (s : TCPSender) (op : Op) :
    ∃ m, Prepares s op m ∧ Emits m (s.drivenStep op) := by
  obtain ⟨m, hm, hemits⟩ := step_emits s op
  refine ⟨m, hm, ?_⟩
  cases op with
  | write data => exact hemits.trans (fillWindow_emits _)
  | endInput => exact hemits.trans (fillWindow_emits _)
  | fillWindow => exact hemits
  | ackReceived ackno windowSize => exact hemits
  | tick ms => exact hemits
  | sendEmptySegment => exact hemits

theorem FinNoted.drivenStep (h : FinNoted s) (op : Op) :
    FinNoted (s.drivenStep op) := by
  obtain ⟨m, hm, hemits⟩ := drivenStep_emits s op
  exact (h.congr hm.created hm.finSent).emits hemits

theorem drivenStep_error (s : TCPSender) (op : Op) :
    (s.drivenStep op).streamIn.error = s.streamIn.error := by
  obtain ⟨m, hm, hemits⟩ := drivenStep_emits s op
  rw [hemits.error, hm.streamIn, Op.onStream_error]

/-- The input of the stream ends only by the writer's word. -/
theorem drivenStep_inputEnded (s : TCPSender) (op : Op) :
    (s.drivenStep op).streamIn.inputEnded = true ↔
      s.streamIn.inputEnded = true ∨ op = .endInput := by
  obtain ⟨m, hm, hemits⟩ := drivenStep_emits s op
  rw [hemits.inputEnded, hm.streamIn, Op.onStream_inputEnded]

end DrivenStep

section Closing

variable {s t : TCPSender}

/-! ## The invariant -/

theorem Filled.orderly (h : Filled s) (hsegmented : Segmented s) :
    Orderly s :=
  ⟨hsegmented, h.fresh, h.drained⟩

theorem Orderly.filled (h : Orderly s) : Filled s :=
  ⟨h.fresh, h.drained⟩

theorem orderly_new
    (capacity : ℕ) (retxTimeout : UInt16) (fixedIsn : Option WrappingInt32)
    (randomIsn : UInt32) :
    Orderly (new capacity retxTimeout fixedIsn randomIsn) :=
  (filled_new capacity retxTimeout fixedIsn randomIsn).orderly
    (segmented_new capacity retxTimeout fixedIsn randomIsn)

theorem Segmented.drivenStep
    {op : Op} (h : Segmented s) (hop : EndRespected s op) :
    Segmented (s.drivenStep op) := by
  cases op with
  | write data => exact (h.write hop).fillWindow
  | endInput => exact h.endInput.fillWindow
  | fillWindow => exact h.fillWindow
  | ackReceived ackno windowSize => exact h.ackReceived ackno windowSize
  | tick ms =>
      exact h.sameSent (h.tracked.tick ms) (ticked_tick s ms).sameSent
  | sendEmptySegment =>
      exact h.sameSent (h.tracked.step .sendEmptySegment)
        (sameSent_sendEmptySegment s)

theorem Orderly.step
    {op : Op} (h : Orderly s) (hop : EndRespected s op) :
    Orderly (s.drivenStep op) :=
  (h.filled.drivenStep op).orderly (h.segmented.drivenStep hop)

/-! ## After the FIN -/

/-- With an empty buffer nothing is emitted after the FIN. -/
theorem Emits.eq_of_finSent
    (h : Emits s t) (hsyn : s.syn = true) (hfin : s.finSent = true)
    (hempty : s.streamIn.bufferSize = 0) : t = s := by
  rcases Relation.ReflTransGen.cases_head h with heq | ⟨r, ⟨segment, he⟩, -⟩
  · exact heq.symm
  · have hno := he.not_finSent hsyn hempty
    exact absurd (hfin.symm.trans hno) (by decide)

theorem FinKept.refl (s : TCPSender) : FinKept s s :=
  fun hfin => ⟨hfin, rfl, rfl⟩

theorem FinKept.trans
    {r : TCPSender} (h : FinKept s t) (h' : FinKept t r) : FinKept s r := by
  intro hfin
  obtain ⟨hfin', hcreated, hnext⟩ := h hfin
  obtain ⟨hfin'', hcreated', hnext'⟩ := h' hfin'
  exact ⟨hfin'', hcreated'.trans hcreated, hnext'.trans hnext⟩

theorem SameSent.finKept (h : SameSent s t) : FinKept s t :=
  fun hfin => ⟨h.finSent.trans hfin, h.created, h.next⟩

theorem Segmented.finKept_of_emits
    (h : Segmented s) (he : Emits s t) : FinKept s t := by
  intro hfin
  obtain ⟨hsyn, heof⟩ := h.eof_of_finSent hfin
  rw [he.eq_of_finSent hsyn hfin ((eof_iff _).mp heof).2]
  exact ⟨hfin, rfl, rfl⟩

theorem Orderly.finKept_step
    {op : Op} (h : Orderly s) (hop : EndRespected s op) :
    FinKept s (s.drivenStep op) := by
  cases op with
  | write data =>
      have hwrite : FinKept s (s.step (.write data)) :=
        fun hfin => ⟨hfin, rfl, rfl⟩
      exact hwrite.trans
        ((h.segmented.write hop).finKept_of_emits (fillWindow_emits _))
  | endInput =>
      have hend : FinKept s (s.step .endInput) :=
        fun hfin => ⟨hfin, rfl, rfl⟩
      exact hend.trans
        (h.segmented.endInput.finKept_of_emits (fillWindow_emits _))
  | fillWindow => exact h.segmented.finKept_of_emits (fillWindow_emits s)
  | ackReceived ackno windowSize =>
      intro hfin
      obtain ⟨hsyn, heof⟩ := h.segmented.eof_of_finSent hfin
      obtain ⟨m, hsame, hemits⟩ := ackReceived_emits s ackno windowSize
      have heq := hemits.eq_of_finSent (hsame.syn.trans hsyn)
        (hsame.finSent.trans hfin)
        (by rw [hsame.streamIn]; exact ((eof_iff _).mp heof).2)
      rw [drivenStep, TCPSender.step, heq]
      exact hsame.finKept hfin
  | tick ms => exact (ticked_tick s ms).sameSent.finKept
  | sendEmptySegment => exact (sameSent_sendEmptySegment s).finKept

/-! ## Up to the FIN -/

/-- If something was emitted, something is in flight. -/
theorem Emits.syn_of_idle
    (h : Emits s t) (hidle : t.bytesInFlight = 0) (hsyn : t.syn = true) :
    s.syn = true := by
  rw [← h.eq_of_idle hidle]
  exact hsyn

theorem FinReachable.fillWindow (h : FinReachable s) :
    FinReachable s.fillWindow := by
  intro hsyn hfin hidle
  have hsyn' := (fillWindow_emits s).syn_of_idle hidle hsyn
  obtain ⟨heq, -⟩ := fillWindow_of_idle hsyn' hidle
  rw [heq] at hfin hidle ⊢
  exact h hsyn' hfin hidle

theorem FinReachable.ackReceived
    {ackno : WrappingInt32} {windowSize : UInt16} (h : FinReachable s)
    (htracked : Tracked s)
    (hop : KeepsFin s (.ackReceived ackno windowSize)) :
    FinReachable (s.ackReceived ackno windowSize) := by
  intro hsyn hfin hidle
  obtain ⟨m, hsame, hemits⟩ := ackReceived_emits s ackno windowSize
  have hsyn' : s.syn = true :=
    hsame.syn.symm.trans (hemits.syn_of_idle hidle hsyn)
  rcases htracked.ackReceived_of_idle hsyn' hidle with
    heq | ⟨hbefore, hclosed⟩ | ⟨hpos, -⟩
  · rw [heq] at hfin hidle ⊢
    exact h hsyn' hfin hidle
  · have hfin' : s.finSent = false := by
      rw [← Bool.not_eq_true]
      intro htrue
      have hafter := hemits.finSent (hsame.finSent.trans htrue)
      exact absurd (hafter.symm.trans hfin) (by decide)
    exact absurd ⟨hsyn', hfin', hbefore, hclosed⟩ hop
  · exact hpos

theorem FinReachable.step
    {op : Op} (h : FinReachable s) (htracked : Tracked s)
    (hop : KeepsFin s op) : FinReachable (s.drivenStep op) := by
  cases op with
  | write data =>
      have hwrite : FinReachable (s.step (.write data)) := h
      exact hwrite.fillWindow
  | endInput =>
      have hend : FinReachable (s.step .endInput) := h
      exact hend.fillWindow
  | fillWindow => exact h.fillWindow
  | ackReceived ackno windowSize => exact h.ackReceived htracked hop
  | tick ms =>
      have hticked := ticked_tick s ms
      intro hsyn hfin hidle
      have hpos := h (hticked.sameSent.syn.symm.trans hsyn)
        (hticked.sameSent.finSent.symm.trans hfin)
        (hticked.inFlight.symm.trans hidle)
      rw [← hticked.window] at hpos
      exact hpos
  | sendEmptySegment => exact h

/-- The input ends only after the SYN. -/
theorem Orderly.syn_of_inputEnded
    (h : Orderly s) (hended : s.streamIn.inputEnded = true) :
    s.syn = true := by
  rw [← Bool.not_eq_false]
  intro hno
  exact absurd (hended.symm.trans (h.fresh hno).2.2) (by decide)

/-- An idle sender at the end of its stream has sent the FIN. -/
theorem Orderly.finSent_of_eof
    (h : Orderly s) (hopen : FinReachable s)
    (heof : s.streamIn.eof = true) (hidle : s.bytesInFlight = 0) :
    s.finSent = true := by
  obtain ⟨hended, -⟩ := (eof_iff _).mp heof
  have hsyn := h.syn_of_inputEnded hended
  by_contra hno
  have hpos := hopen hsyn (Bool.eq_false_of_not_eq_true hno) hidle
  rcases h.drained hsyn with hzero | ⟨-, hfin⟩
  · omega
  · exact hno (hfin hended)

end Closing

end TCPSender

end Sponge
