import Sponge.TCPSender.Progress

/-!
# What is left to send

A sender that is driven by a connection calls `fill_window` after everything
that can give it something to send.  So between two operations there is
nothing that the window would allow to be sent, and `fill_window` sends
something only if it has been given a reason to: the SYN, bytes, the end of
the stream, or an acknowledgment that opens the window.
-/

namespace Sponge

namespace TCPSender

/-- Before the SYN there is no window and the stream is untouched; after it,
everything has been sent that the window allows. -/
structure Filled (s : TCPSender) : Prop where
  fresh : s.syn = false → s.recvWdnSz = 0 ∧ s.streamIn.bufferSize = 0 ∧
    s.streamIn.inputEnded = false
  drained : s.syn = true → Drained s

section Filled

variable {s t : TCPSender}

theorem filled_new
    (capacity : ℕ) (retxTimeout : UInt16) (fixedIsn : Option WrappingInt32)
    (randomIsn : UInt32) :
    Filled (new capacity retxTimeout fixedIsn randomIsn) where
  fresh := fun _ => ⟨rfl, rfl, rfl⟩
  drained := fun h => absurd h Bool.false_ne_true

/-- The SYN leaves the window and the stream as they are. -/
theorem filled_syn
    (hsyn : s.syn = false)
    (hready : s.recvWdnSz = 0 ∨
      (s.streamIn.bufferSize = 0 ∧ s.streamIn.inputEnded = false)) :
    Filled s.fillWindow := by
  have he := emission_syn hsyn
  rw [← fillWindow_of_not_syn hsyn] at he
  refine ⟨fun hno => ?_, fun _ => ?_⟩
  · exact absurd (he.syn.symm.trans hno) (by decide)
  · rcases hready with hzero | ⟨hempty, hopen⟩
    · exact Or.inl ((he.windowSyn hsyn).trans hzero)
    · have hsize := he.bufferSize_add
      refine Or.inr ⟨by omega, fun hended => ?_⟩
      rw [he.inputEnded, hopen] at hended
      exact absurd hended (by decide)

theorem filled_fillWindow
    (hready : s.syn = false → s.recvWdnSz = 0 ∨
      (s.streamIn.bufferSize = 0 ∧ s.streamIn.inputEnded = false)) :
    Filled s.fillWindow := by
  cases hsyn : s.syn with
  | false => exact filled_syn hsyn (hready hsyn)
  | true =>
      obtain ⟨hemits, hdrained⟩ := fillWindow_spec hsyn
      refine ⟨fun hno => ?_, fun _ => hdrained⟩
      exact absurd ((hemits.syn hsyn).symm.trans hno) (by decide)

/-- A step that neither sends anything nor touches the window. -/
theorem Filled.sameSent
    (h : Filled s) (hsame : SameSent s t)
    (hwindow : t.recvWdnSz = s.recvWdnSz) : Filled t where
  fresh := by
    rw [hsame.syn, hwindow, hsame.streamIn]
    exact h.fresh
  drained := by
    unfold Drained
    rw [hsame.syn, hwindow, hsame.streamIn, hsame.finSent]
    exact h.drained

theorem Filled.ackReceived
    (h : Filled s) (ackno : WrappingInt32) (windowSize : UInt16) :
    Filled (s.ackReceived ackno windowSize) := by
  apply ackReceived_rule h
  · exact ⟨fun hno => ⟨rfl, (h.fresh hno).2⟩, fun _ => Or.inl rfl⟩
  · intro _
    have hsame :=
      (applied_applyAck s (s.absoluteAckno ackno) windowSize).sameSent
    refine filled_fillWindow fun hno => Or.inr ?_
    rw [hsame.streamIn]
    exact (h.fresh (hsame.syn.symm.trans hno)).2

theorem Filled.drivenStep (h : Filled s) (op : Op) :
    Filled (s.drivenStep op) := by
  cases op with
  | write data => exact filled_fillWindow fun hno => Or.inl (h.fresh hno).1
  | endInput => exact filled_fillWindow fun hno => Or.inl (h.fresh hno).1
  | fillWindow => exact filled_fillWindow fun hno => Or.inl (h.fresh hno).1
  | ackReceived ackno windowSize => exact h.ackReceived ackno windowSize
  | tick ms =>
      exact h.sameSent (ticked_tick s ms).sameSent (ticked_tick s ms).window
  | sendEmptySegment =>
      exact h.sameSent (sameSent_sendEmptySegment s) rfl

end Filled

/-! ## When `fill_window` sends nothing -/

section Silence

variable {s t : TCPSender}

/-- Emissions append to the queue, and none leaves everything as it is. -/
theorem Emits.segmentsOut (h : Emits s t) :
    ∃ new, t.segmentsOut = s.segmentsOut ++ new ∧ (new = [] → t = s) := by
  induction h with
  | refl => exact ⟨[], (List.append_nil _).symm, fun _ => rfl⟩
  | tail _ hlast ih =>
      obtain ⟨segment, he⟩ := hlast
      obtain ⟨new, hnew, -⟩ := ih
      refine ⟨new ++ [segment], ?_, fun hnil => ?_⟩
      · rw [he.segmentsOut, hnew, List.append_assoc]
      · exact absurd hnil (by simp)

/-- With an empty buffer, `fill_window` can only send a FIN. -/
theorem fillWindow_of_drained (hsyn : s.syn = true) (h : Drained s) :
    s.fillWindow = s := by
  rcases h with hzero | ⟨hempty, hfin⟩
  · exact (fillWindow_emits s).eq_of_no_window hsyn hzero
  · have hnone :
        (!s.finSent && s.streamIn.eof && decide (s.recvWdnSz > 0)) =
          false := by
      rw [← Bool.not_eq_true, Bool.and_eq_true, Bool.and_eq_true, eof_iff]
      rintro ⟨⟨hno, hended, -⟩, -⟩
      rw [hfin hended] at hno
      exact absurd hno (by decide)
    simp only [fillWindow, hsyn, hempty, fillLoop, sendFin, hnone,
      Bool.not_true, Bool.false_eq_true, if_false]

/-- `fill_window` sends nothing exactly if the SYN and everything that the
window allows have been sent. -/
theorem fillWindow_segmentsOut_iff (s : TCPSender) :
    s.fillWindow.segmentsOut = s.segmentsOut ↔
      s.syn = true ∧ Drained s := by
  constructor
  · intro hout
    obtain ⟨new, hnew, hself⟩ := (fillWindow_emits s).segmentsOut
    rw [hnew] at hout
    have heq := hself (List.append_right_eq_self.mp hout)
    have hsyn : s.syn = true := by
      by_contra hno
      have he := emission_syn (Bool.eq_false_of_not_eq_true hno)
      rw [← fillWindow_of_not_syn (Bool.eq_false_of_not_eq_true hno)] at he
      have hset := he.syn
      rw [heq] at hset
      exact hno hset
    refine ⟨hsyn, ?_⟩
    have hdrained := (fillWindow_spec hsyn).2
    rw [heq] at hdrained
    exact hdrained
  · rintro ⟨hsyn, hdrained⟩
    rw [fillWindow_of_drained hsyn hdrained]

/-- The acknowledgment is applied, and then there is something to send: the
SYN, or bytes or the end of the stream within a window that is open. -/
def AckSends (s : TCPSender) (ackno : WrappingInt32)
    (windowSize : UInt16) : Prop :=
  s.absoluteAckno ackno ≤ s.nextSeqnoAbsolute ∧
    s.nextSeqnoAbsolute ≤
      add64 (s.absoluteAckno ackno) windowSize.toNat ∧
    (s.syn = false ∨
      (¬ ClosesWindow s ackno windowSize ∧
        (0 < s.streamIn.bufferSize ∨
          (s.streamIn.inputEnded = true ∧ s.finSent = false))))

instance ackSendsDecidable (s : TCPSender) (ackno : WrappingInt32)
    (windowSize : UInt16) : Decidable (AckSends s ackno windowSize) :=
  inferInstanceAs (Decidable (_ ∧ _ ∧ _))

/-- The window after an acknowledgment that is applied is empty exactly if the
acknowledgment closes it. -/
theorem applied_window_eq_zero_iff
    {ackno : WrappingInt32} {windowSize : UInt16}
    (hsent : s.absoluteAckno ackno ≤ s.nextSeqnoAbsolute)
    (hroom : s.nextSeqnoAbsolute ≤
      add64 (s.absoluteAckno ackno) windowSize.toNat) :
    (s.applyAck (s.absoluteAckno ackno) windowSize).recvWdnSz = 0 ↔
      ClosesWindow s ackno windowSize := by
  have hwindow := applied_window hsent hroom
  have hsum := add64_eq_of_applied hsent hroom
  constructor
  · intro hzero
    refine ⟨hsent, Or.inr ⟨?_, ?_⟩⟩
    · omega
    · omega
  · rintro ⟨-, hless | ⟨hpos, heq⟩⟩
    · omega
    · omega

theorem ackReceived_segmentsOut_iff
    (s : TCPSender) (ackno : WrappingInt32) (windowSize : UInt16) :
    (s.ackReceived ackno windowSize).segmentsOut = s.segmentsOut ↔
      ¬ AckSends s ackno windowSize := by
  rcases ackReceived_cases s ackno windowSize with
    ⟨hbeyond, heq⟩ | ⟨-, hless, heq⟩ | ⟨hsent, hroom, heq⟩
  · rw [heq]
    exact iff_of_true rfl fun hsends => absurd hsends.1 (not_le.mpr hbeyond)
  · rw [heq]
    exact iff_of_true rfl fun hsends =>
      absurd hsends.2.1 (not_le.mpr hless)
  · have happlied := applied_applyAck s (s.absoluteAckno ackno) windowSize
    have hsame := happlied.sameSent
    rw [heq, ← happlied.segmentsOut, fillWindow_segmentsOut_iff, Drained,
      applied_window_eq_zero_iff hsent hroom, hsame.syn, hsame.streamIn,
      hsame.finSent, AckSends]
    cases hsyn : s.syn with
    | false => simp [hsent, hroom]
    | true =>
        simp only [true_and, hsent, hroom, Bool.true_eq_false, false_or,
          not_and_or, not_not, not_or, Nat.not_lt, Nat.le_zero,
          Bool.not_eq_false]
        tauto

end Silence

end TCPSender

end Sponge
