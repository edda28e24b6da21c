import Sponge.TCPSender.Emission

/-!
# A rule for `fill_window`

Whatever `fill_window` does is done in two kinds of steps.  A segment is made
ready, which reads from the stream, uses up the window and notes the SYN or
the FIN; and a segment without the ACK and RST flags is sent.  What both kinds
of steps preserve, `fill_window` preserves.
-/

namespace Sponge

namespace TCPSender

/-- The second sender has made a segment ready. -/
def Readied (s t : TCPSender) : Prop :=
  ∃ stream window underflow fin syn,
    ∃ hlt : window < 2 ^ 16, t =
      { s with
        streamIn := stream
        recvWdnSz := window
        windowUnderflow := underflow
        finSent := fin
        syn := syn
        recvWdnSz_lt := hlt }

/-- The segment carries neither an acknowledgment nor a reset. -/
def Unflagged (segment : TCPSegment) : Prop :=
  segment.header.ack = false ∧ segment.header.rst = false

theorem readied_prepareSegment (s : TCPSender) (segment : TCPSegment) :
    Readied s (s.prepareSegment segment).1 := by
  unfold prepareSegment piggybackFin readPayload consumeWindow
  split
  · exact ⟨_, _, _, _, _, _, rfl⟩
  · exact ⟨_, _, _, _, _, _, rfl⟩

theorem Unflagged.setFin {segment : TCPSegment} (h : Unflagged segment) :
    Unflagged segment.setFin := h

theorem Unflagged.prepareSegment
    {segment : TCPSegment} (h : Unflagged segment) (s : TCPSender) :
    Unflagged (s.prepareSegment segment).2 := by
  unfold TCPSender.prepareSegment piggybackFin
  split
  · exact h
  · exact h

section Rule

variable {P : TCPSender → Prop}
  (hready : ∀ s t, Readied s t → P s → P t)

section Segments

variable {K : TCPSegment → Prop}
  (hfin : ∀ segment, K segment → K segment.setFin)
  (hprepare : ∀ (s : TCPSender) segment, K segment →
    K (s.prepareSegment segment).2)
  (hsend : ∀ s segment, K segment → P s → P (s.sendSegment segment))

include hready hprepare hsend

theorem fillRound_rule
    {s : TCPSender} {segment : TCPSegment} (hsegment : K segment)
    (h : P s) :
    P (s.fillRound segment).1 ∧ K (s.fillRound segment).2 := by
  have hprepared := hready _ _ (readied_prepareSegment s segment) h
  have hkept := hprepare s segment hsegment
  unfold fillRound
  simp only
  split
  · exact ⟨hsend _ _ hkept hprepared, hkept⟩
  · exact ⟨hprepared, hkept⟩

theorem fillLoop_rule
    (fuel : ℕ) {s : TCPSender} {segment : TCPSegment}
    (hsegment : K segment) (h : P s) :
    P (fillLoop fuel s segment).1 ∧ K (fillLoop fuel s segment).2 := by
  induction fuel generalizing s segment with
  | zero => exact ⟨h, hsegment⟩
  | succ fuel ih =>
      rw [fillLoop]
      split
      · obtain ⟨hround, hkept⟩ :=
          fillRound_rule hready hprepare hsend hsegment h
        exact ih hkept hround
      · exact ⟨h, hsegment⟩

omit hprepare in
include hfin in
theorem sendFin_rule
    {s : TCPSender} {segment : TCPSegment} (hsegment : K segment)
    (h : P s) : P (s.sendFin segment) := by
  unfold sendFin
  split
  · rw [sendSegment_setFinSent]
    unfold consumeWindow
    exact hsend _ _ (hfin _ hsegment)
      (hready s _ ⟨_, _, _, _, _, _, rfl⟩ h)
  · exact h

include hfin in
/-- What readying and sending segments of a kind preserve, `fill_window`
preserves; `fill_window` starts with a SYN or with an empty segment. -/
theorem fillWindow_segments_rule
    (hsyn : K { header := { syn := true } }) (hempty : K {})
    {s : TCPSender} (h : P s) : P s.fillWindow := by
  unfold fillWindow
  split
  · exact hsend _ _ hsyn (hready s _ ⟨_, _, _, _, _, _, rfl⟩ h)
  · obtain ⟨hloop, hkept⟩ :=
      fillLoop_rule hready hprepare hsend s.streamIn.bufferSize hempty h
    exact sendFin_rule hready hfin hsend hkept hloop

end Segments

include hready in
/-- What readying and sending segments preserve, `fill_window` preserves. -/
theorem fillWindow_rule
    (hsend : ∀ s segment, Unflagged segment → P s →
      P (s.sendSegment segment))
    {s : TCPSender} (h : P s) : P s.fillWindow :=
  fillWindow_segments_rule (K := Unflagged) hready
    (fun _ hsegment => hsegment.setFin)
    (fun s _ hsegment => hsegment.prepareSegment s) hsend ⟨rfl, rfl⟩
    ⟨rfl, rfl⟩ h

end Rule

end TCPSender

end Sponge
