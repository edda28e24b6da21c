import Sponge.TCPConnection.Driver
import Sponge.TCPSender.Summary

/-!
# When a connection goes inactive

`active` does not look at the FIN: it takes a sender whose stream is at its end
and that has nothing in flight for one whose FIN has been acknowledged.  This
is right as long as an idle sender can send its FIN, so as long as no
acknowledgment closes the window of an idle sender before that.
-/

namespace Sponge

namespace TCPConnection

/-! ## What inactivity means -/

section Summary

variable {c : TCPConnection}

/-- A connection goes inactive with both streams broken, or with both at
their end and nothing in flight. -/
theorem inactive_cases (h : c.active = false) :
    (c.sender.streamIn.error = true ∧ c.receiver.streamOut.error = true) ∨
      (c.receiver.streamOut.eof = true ∧ c.sender.streamIn.eof = true ∧
        c.bytesInFlight = 0) := by
  unfold active at h
  split at h
  next herrors =>
    rw [Bool.and_eq_true] at herrors
    exact Or.inl herrors
  · split at h
    · simp only [Bool.not_eq_false', Bool.and_eq_true, beq_iff_eq] at h
      exact Or.inr ⟨h.1.1, h.1.2, h.2⟩
    · simp only [Bool.not_eq_false', Bool.and_eq_true, beq_iff_eq] at h
      exact Or.inr ⟨h.1.1.1, h.1.1.2, h.1.2⟩

/-- An idle sender that has sent its FIN is summarized as such. -/
theorem senderSummary_finAcked
    {s : TCPSender} (h : TCPSender.Segmented s)
    (herror : s.streamIn.error = false) (hfin : s.finSent = true)
    (hidle : s.bytesInFlight = 0) :
    TCPState.senderSummary s = .finAcked := by
  obtain ⟨hsyn, -⟩ := h.eof_of_finSent hfin
  have hnext : ¬ s.nextSeqnoAbsolute = s.bytesInFlight := by
    rw [hidle, h.next_eq_zero_iff, hsyn]
    decide
  obtain ⟨-, -, hlater⟩ := h.senderSummary_iff herror
  exact (hlater hsyn hnext).1.mpr ⟨hfin, h.tracked.isEmpty_iff.mpr hidle⟩

theorem receiverSummary_finRecv
    {r : TCPReceiver} (hsyn : r.syn = true)
    (herror : r.streamOut.error = false)
    (hended : r.streamOut.inputEnded = true) :
    TCPState.receiverSummary r = .finRecv := by
  simp [TCPState.receiverSummary, TCPReceiver.ackno, hsyn, herror, hended]

/-- An inactive connection is reset if both streams are broken. -/
theorem state_eq_reset
    (h : c.active = false) (hsender : c.sender.streamIn.error = true)
    (hreceiver : c.receiver.streamOut.error = true) :
    c.state = TCPState.ofState .reset := by
  simp [state, TCPState.summarize, TCPState.senderSummary,
    TCPState.receiverSummary, hsender, hreceiver, h, TCPState.ofState]

end Summary

/-! ## The condition -/

/-- Nothing is written after the end of the outbound stream. -/
def NoWriteAfterEnd (c : TCPConnection) : Op → Prop
  | .write _ => c.sender.streamIn.inputEnded = false
  | .connect => True
  | .endInputStream => True
  | .tick _ => True
  | .segmentReceived _ => True
  | .readInbound _ => True

instance noWriteAfterEndDecidable (c : TCPConnection) :
    ∀ op, Decidable (NoWriteAfterEnd c op)
  | .write _ => inferInstanceAs (Decidable (_ = _))
  | .connect => isTrue trivial
  | .endInputStream => isTrue trivial
  | .tick _ => isTrue trivial
  | .segmentReceived _ => isTrue trivial
  | .readInbound _ => isTrue trivial

/-- The segment carries an acknowledgment that reaches the sender before its
FIN is sent and when nothing is in flight, and that closes the window. -/
def ShutsOutFin (c : TCPConnection) (seg : TCPSegment) : Prop :=
  (c.active = true ∧ seg.header.rst = false ∧ seg.header.ack = true) ∧
    c.sender.syn = true ∧ c.sender.finSent = false ∧ c.bytesInFlight = 0 ∧
    TCPSender.ClosesWindow c.sender seg.header.ackno seg.header.win

/-- No segment shuts out the FIN. -/
def KeepsFin (c : TCPConnection) : Op → Prop
  | .segmentReceived seg => ¬ ShutsOutFin c seg
  | .connect => True
  | .write _ => True
  | .endInputStream => True
  | .tick _ => True
  | .readInbound _ => True

instance keepsFinDecidable (c : TCPConnection) :
    ∀ op, Decidable (KeepsFin c op)
  | .segmentReceived _ => inferInstanceAs (Decidable (¬ (_ ∧ _)))
  | .connect => isTrue trivial
  | .write _ => isTrue trivial
  | .endInputStream => isTrue trivial
  | .tick _ => isTrue trivial
  | .readInbound _ => isTrue trivial

/-! ## The invariant -/

/-- What holds throughout the run. -/
structure Finishing (c : TCPConnection) : Prop where
  orderly : TCPSender.Orderly c.sender
  reachable : TCPSender.FinReachable c.sender
  finNoted : TCPSender.FinNoted c.sender
  errors : c.sender.streamIn.error = c.receiver.streamOut.error
  synFirst : c.receiver.syn = false →
    c.receiver.streamOut.inputEnded = false

theorem finishing_new (cfg : TCPConfig) (randomIsn : UInt32) :
    Finishing (new cfg randomIsn) where
  orderly := TCPSender.orderly_new _ _ _ _
  reachable := fun h => absurd h Bool.false_ne_true
  finNoted := TCPSender.finNoted_new _ _ _ _
  errors := rfl
  synFirst := fun _ => rfl

section Finishing

variable {c : TCPConnection}

/-- A stream can only end after a SYN. -/
theorem Finishing.step_synFirst (h : Finishing c) (op : Op) :
    (c.step op).receiver.syn = false →
      (c.step op).receiver.streamOut.inputEnded = false := by
  rcases c.step_receiver op with
    ⟨-, heq⟩ | ⟨-, heq | ⟨len, heq⟩ | ⟨seg, heq⟩⟩
  · rw [heq]
    exact h.synFirst
  · rw [heq]
    exact h.synFirst
  · rw [heq, TCPReceiver.popOutput_streamOut,
      ByteStream.popOutput_inputEnded]
    exact h.synFirst
  · rw [heq]
    by_cases htakes : c.receiver.Takes seg
    · rw [TCPReceiver.segmentReceived_syn htakes]
      intro hfalse
      exact absurd hfalse (by decide)
    · rw [TCPReceiver.segmentReceived_of_not_takes htakes]
      exact h.synFirst

theorem Finishing.step
    {op : Op} (h : Finishing c) (hwrite : NoWriteAfterEnd c op)
    (hkeeps : KeepsFin c op) : Finishing (c.step op) := by
  have hops : Guarded TCPSender.drivenStep
      (fun s op => TCPSender.EndRespected s op ∧ TCPSender.KeepsFin s op)
      c.sender (c.senderOps op) := by
    apply guarded_senderOps
    · exact fun _ => ⟨trivial, trivial⟩
    · exact fun _ _ => ⟨trivial, trivial⟩
    · exact fun _ _ => ⟨trivial, trivial⟩
    · rintro data rfl -
      refine ⟨fun hended => ?_, trivial⟩
      exact absurd (hended.symm.trans hwrite) (by decide)
    · rintro seg rfl hactive hrst hack
      refine ⟨trivial, fun hshut => hkeeps ⟨⟨hactive, hrst, hack⟩, hshut⟩⟩
  have hsender := c.step_sender_invariant
    (P := fun s => TCPSender.Orderly s ∧ TCPSender.FinReachable s ∧
      TCPSender.FinNoted s)
    (fun _ out error hs =>
      ⟨hs.1.mute out error, hs.2.1, hs.2.2.congr rfl rfl⟩)
    (fun _ op hs hop =>
      ⟨hs.1.step hop.1, hs.2.1.step hs.1.segmented.tracked hop.2,
        hs.2.2.drivenStep op⟩)
    ⟨h.orderly, h.reachable, h.finNoted⟩ hops
  exact
    { orderly := hsender.1
      reachable := hsender.2.1
      finNoted := hsender.2.2
      errors := by rw [step_sender_error, step_receiver_error, h.errors]
      synFirst := h.step_synFirst op }

/-- An inactive connection that is not broken has finished: its FIN has been
sent and acknowledged, and the inbound stream has ended. -/
theorem Finishing.closed_of_inactive
    (h : Finishing c) (hinactive : c.active = false)
    (herror : c.sender.streamIn.error = false) :
    c.state = TCPState.ofState .closed ∧
      (∃ e ∈ c.sender.created, e.2.header.fin = true) ∧
      c.sender.outstandingSegments.isEmpty = true ∧
      c.inboundStream.inputEnded = true := by
  rcases inactive_cases hinactive with ⟨hbroken, -⟩ | ⟨hin, hout, hidle⟩
  · exact absurd (herror.symm.trans hbroken) (by decide)
  · have hfin := h.orderly.finSent_of_eof h.reachable hout hidle
    have hended := ((TCPSender.eof_iff _).mp hin).1
    have hsyn : c.receiver.syn = true := by
      rw [← Bool.not_eq_false]
      intro hno
      exact absurd (hended.symm.trans (h.synFirst hno)) (by decide)
    have hsender := senderSummary_finAcked h.orderly.segmented herror hfin
      hidle
    have hreceiver := receiverSummary_finRecv hsyn
      (h.errors.symm.trans herror) hended
    refine ⟨?_, h.finNoted.mp hfin,
      h.orderly.segmented.tracked.isEmpty_iff.mpr hidle, hended⟩
    rw [state, TCPState.summarize, hsender, hreceiver, hinactive]
    rfl

end Finishing

/-! ## Runs -/

/-- A connection goes inactive only when it is finished or broken: in every
run in which nothing is written after the end and no segment shuts out the
FIN, the state of an inactive connection is RESET, and then the connection was
reset or given up, or it is CLOSED, and then the FIN has been sent and
acknowledged and the inbound stream has ended. -/
theorem inactive_only_when_finished
    (cfg : TCPConfig) (randomIsn : UInt32) (ops : List Op)
    (hops : Guarded step (fun c op => NoWriteAfterEnd c op ∧ KeepsFin c op)
      (new cfg randomIsn) ops)
    (hinactive : (run step (new cfg randomIsn) ops).active = false) :
    let c := run step (new cfg randomIsn) ops
    (c.state = TCPState.ofState .reset ∧ WasReset (new cfg randomIsn) ops) ∨
      (c.state = TCPState.ofState .closed ∧
        (∃ e ∈ c.sender.created, e.2.header.fin = true) ∧
        c.sender.outstandingSegments.isEmpty = true ∧
        c.inboundStream.inputEnded = true) := by
  intro c
  have hc : Finishing c :=
    run_invariant (fun _ _ hs hop => hs.step hop.1 hop.2)
      (finishing_new cfg randomIsn) hops
  cases herror : c.sender.streamIn.error with
  | true =>
      have hreceiver := hc.errors.symm.trans herror
      exact Or.inl ⟨state_eq_reset hinactive herror hreceiver,
        wasReset_of_error rfl herror⟩
  | false => exact Or.inr (hc.closed_of_inactive hinactive herror)

/-- A segment of the peer with an acknowledgment. -/
def peerSegment (syn fin : Bool) (seqno ackno : UInt32) (win : UInt16) :
    TCPSegment :=
  { header :=
      { syn := syn
        fin := fin
        ack := true
        seqno := ⟨seqno⟩
        ackno := ⟨ackno⟩
        win := win } }

def smallConfig : TCPConfig :=
  { recvCapacity := 4, sendCapacity := 4, fixedIsn := some ⟨0⟩ }

/-- The peer ends its stream first; our FIN follows and is acknowledged. -/
def passiveCloseRun : List Op :=
  [.connect, .segmentReceived (peerSegment true false 0 1 10), .write [97],
    .segmentReceived (peerSegment false true 1 2 10), .endInputStream,
    .segmentReceived (peerSegment false false 2 3 10)]

theorem inactive_only_when_finished_passiveClose :
    (run step (new smallConfig 0) passiveCloseRun).active = false ∧
      ((run step (new smallConfig 0) passiveCloseRun).state =
        TCPState.ofState .closed) := by
  have hinactive :
      (run step (new smallConfig 0) passiveCloseRun).active = false := by
    decide
  refine ⟨hinactive, ?_⟩
  rcases inactive_only_when_finished smallConfig 0 passiveCloseRun
    (by decide) hinactive with ⟨hreset, -⟩ | ⟨hclosed, -⟩
  · exact absurd hreset (by decide)
  · exact hclosed

/-- The peer ends its stream first.  Then the acknowledgment of the SYN
arrives again, with the smaller window that it had at first, and closes the
window before the end of our stream. -/
def shutOutRun : List Op :=
  [.connect, .segmentReceived (peerSegment true false 0 1 10), .write [97],
    .segmentReceived (peerSegment false true 1 2 10),
    .segmentReceived (peerSegment false false 1 1 1), .endInputStream]

/-- The connection is inactive although its FIN has not been sent. -/
theorem inactive_without_fin_shutOutRun :
    Guarded step NoWriteAfterEnd (new smallConfig 0) shutOutRun ∧
      (run step (new smallConfig 0) shutOutRun).active = false ∧
      (run step (new smallConfig 0) shutOutRun).sender.finSent = false ∧
      (run step (new smallConfig 0) shutOutRun).state ≠
        TCPState.ofState .closed ∧
      (run step (new smallConfig 0) shutOutRun).state ≠
        TCPState.ofState .reset := by
  decide

end TCPConnection

end Sponge
