import Sponge.TCPConnection.Inactive

/-!
# The FIN is final

`ByteStream::write` does not look at the flag of `end_input`, and neither do
`TCPConnection::write` and `fill_window`.  Bytes that are written after
`end_input_stream` are accepted, and sent with sequence numbers behind the FIN
and with a second FIN.  If no such byte is accepted, nothing is created after
the FIN; this module shows that the two are equivalent to the class contract.
-/

namespace Sponge

namespace TCPConnection

/-- The write offers bytes to an active connection whose outbound stream has
ended but has room. -/
def WritesAfterEnd (c : TCPConnection) (data : Bytes) : Prop :=
  c.active = true ∧ c.sender.streamIn.inputEnded = true ∧ data ≠ [] ∧
    0 < c.remainingOutboundCapacity

/-- Nothing is written after the end of the outbound stream. -/
def EndRespected (c : TCPConnection) : Op → Prop
  | .write data => ¬ WritesAfterEnd c data
  | .connect => True
  | .endInputStream => True
  | .tick _ => True
  | .segmentReceived _ => True
  | .readInbound _ => True

/-- The FIN is final in a run: nothing is created after a segment with the
FIN, and a write after `end_input_stream` accepts no byte. -/
structure FinIsFinal (start : TCPConnection) (ops : List Op) : Prop where
  created : ∀ pre mid, pre ++ mid <+: ops →
    (∃ e ∈ (run step start pre).sender.created, e.2.header.fin = true) →
    (run step start (pre ++ mid)).sender.created =
        (run step start pre).sender.created ∧
      (run step start (pre ++ mid)).sender.nextSeqnoAbsolute =
        (run step start pre).sender.nextSeqnoAbsolute
  written : ∀ pre data, pre ++ [.write data] <+: ops →
    .endInputStream ∈ pre → ((run step start pre).write data).1 = 0

/-! ## An inactive connection stays inactive -/

section Inactive

variable {c : TCPConnection}

theorem inactive_of_errors
    (hsender : c.sender.streamIn.error = true)
    (hreceiver : c.receiver.streamOut.error = true) : c.active = false := by
  simp [active, hsender, hreceiver]

/-- An idle sender at the end of its stream has nothing to send. -/
theorem fillWindow_of_eof
    {s : TCPSender} (h : TCPSender.Orderly s)
    (heof : s.streamIn.eof = true) : s.fillWindow = s := by
  obtain ⟨hended, hempty⟩ := (TCPSender.eof_iff _).mp heof
  have hsyn := h.syn_of_inputEnded hended
  rcases h.drained hsyn with hzero | ⟨-, hfin⟩
  · exact (TCPSender.fillWindow_emits s).eq_of_no_window hsyn hzero
  · exact (TCPSender.fillWindow_emits s).eq_of_finSent hsyn (hfin hended)
      hempty

theorem moveFront_active (edit : TCPSegment → TCPSegment) :
    (c.moveFront edit).active = c.active := by
  unfold moveFront
  split
  · rfl
  · rfl

theorem connect_inactive
    (h : TCPSender.Orderly c.sender) (hinactive : c.active = false) :
    c.connect.active = false := by
  rcases inactive_cases hinactive with ⟨hsender, hreceiver⟩ | ⟨-, heof, -⟩
  · apply inactive_of_errors
    · exact (c.step_sender_error .connect).trans (by simp [hsender])
    · exact (c.step_receiver_error .connect).trans (by simp [hreceiver])
  · rw [connect, fillWindow_of_eof h heof]
    simp only
    split
    · exact hinactive
    · exact (moveFront_active id).trans hinactive

theorem readInbound_inactive (hinactive : c.active = false) (len : ℕ) :
    (c.readInbound len).active = false := by
  rcases inactive_cases hinactive with ⟨hsender, hreceiver⟩ | ⟨heof, -, -⟩
  · apply inactive_of_errors
    · exact hsender
    · exact (c.step_receiver_error (.readInbound len)).trans
        (by simp [hreceiver])
  · have herror : (c.readInbound len).receiver.streamOut.error =
        c.receiver.streamOut.error :=
      ByteStream.popOutput_error c.receiver.streamOut len
    have heof' : (c.readInbound len).receiver.streamOut.eof = true := by
      obtain ⟨hended, hempty⟩ := (TCPSender.eof_iff _).mp heof
      refine (TCPSender.eof_iff _).mpr ⟨?_, ?_⟩
      · exact (ByteStream.popOutput_inputEnded _ len).trans hended
      · refine (ByteStream.popOutput_bufferSize c.receiver.streamOut
          len).trans ?_
        rw [hempty, Nat.zero_sub]
    rw [active, heof] at hinactive
    rw [active, herror, heof']
    exact hinactive

/-- No operation revives a connection. -/
theorem step_inactive
    (h : TCPSender.Orderly c.sender) (hinactive : c.active = false)
    (op : Op) : (c.step op).active = false := by
  cases op with
  | connect => exact connect_inactive h hinactive
  | write data =>
      rw [step, write_of_inactive hinactive]
      exact hinactive
  | endInputStream =>
      rw [step, endInputStream_of_inactive hinactive]
      exact hinactive
  | tick ms =>
      rw [step, tick_of_inactive hinactive]
      exact hinactive
  | segmentReceived seg =>
      rw [step, segmentReceived_of_inactive hinactive]
      exact hinactive
  | readInbound len => exact readInbound_inactive hinactive len

end Inactive

/-! ## The end of the outbound stream -/

section End

variable {c : TCPConnection}

/-- The end of the outbound stream is not taken back. -/
theorem step_inputEnded (h : c.sender.streamIn.inputEnded = true) (op : Op) :
    (c.step op).sender.streamIn.inputEnded = true := by
  refine c.step_sender_invariant
    (P := fun s => s.streamIn.inputEnded = true) (fun _ _ _ hs => hs) ?_ h
    (guarded_of_forall (fun _ _ => trivial) _ _)
  intro s op hs _
  exact (TCPSender.drivenStep_inputEnded s op).mpr (Or.inl hs)

/-- Only `end_input_stream` ends the outbound stream. -/
theorem step_not_inputEnded
    {op : Op} (h : c.sender.streamIn.inputEnded = false)
    (hop : op ≠ .endInputStream) :
    (c.step op).sender.streamIn.inputEnded = false := by
  have hops : Guarded TCPSender.drivenStep (fun _ op => op ≠ .endInput)
      c.sender (c.senderOps op) := by
    apply guarded_senderOps
    · exact fun _ => nofun
    · exact fun _ _ => nofun
    · exact fun heq => absurd heq hop
    · exact fun _ _ _ => nofun
    · exact fun _ _ _ _ _ => nofun
  refine c.step_sender_invariant
    (P := fun s => s.streamIn.inputEnded = false) (fun _ _ _ hs => hs) ?_ h
    hops
  intro s op hs hne
  rw [← Bool.not_eq_true, TCPSender.drivenStep_inputEnded]
  rintro (htrue | heq)
  · exact absurd (hs.symm.trans htrue) (by decide)
  · exact hne heq

theorem mem_of_inputEnded
    {start : TCPConnection}
    (hstart : start.sender.streamIn.inputEnded = false) {ops : List Op}
    (h : (run step start ops).sender.streamIn.inputEnded = true) :
    .endInputStream ∈ ops := by
  induction ops using List.reverseRecOn with
  | nil => exact absurd (hstart.symm.trans h) (by decide)
  | append_singleton pre op ih =>
      rw [run_concat] at h
      by_cases hop : op = .endInputStream
      · rw [hop]
        exact List.mem_append_right _ (List.mem_singleton_self _)
      · cases hbefore : (run step start pre).sender.streamIn.inputEnded with
        | true => exact List.mem_append_left _ (ih hbefore)
        | false =>
            have hafter := step_not_inputEnded hbefore hop
            exact absurd (hafter.symm.trans h) (by decide)

/-- After `end_input_stream` the stream has ended or the connection was
inactive. -/
theorem endInputStream_ends (c : TCPConnection) :
    (c.step .endInputStream).sender.streamIn.inputEnded = true ∨
      (c.step .endInputStream).active = false := by
  cases hactive : c.active with
  | true =>
      left
      rw [step, endInputStream_of_active hactive]
      exact (TCPSender.drivenStep_inputEnded c.sender .endInput).mpr
        (Or.inr rfl)
  | false =>
      right
      rw [step, endInputStream_of_inactive hactive]
      exact hactive

end End

/-! ## The invariant -/

/-- What holds throughout a run in which the end of the stream is
respected. -/
structure Ending (c : TCPConnection) : Prop where
  orderly : TCPSender.Orderly c.sender
  finNoted : TCPSender.FinNoted c.sender

section Ending

variable {c : TCPConnection} {op : Op}

theorem ending_new (cfg : TCPConfig) (randomIsn : UInt32) :
    Ending (new cfg randomIsn) :=
  ⟨TCPSender.orderly_new _ _ _ _, TCPSender.finNoted_new _ _ _ _⟩

/-- The ended stream of an active connection accepts nothing. -/
theorem accepted_eq_zero
    {data : Bytes} (hop : EndRespected c (.write data))
    (hactive : c.active = true)
    (hended : c.sender.streamIn.inputEnded = true) :
    (c.sender.streamIn.write data).1 = 0 := by
  rw [ByteStream.write_fst]
  by_contra hne
  refine hop ⟨hactive, hended, ?_, ?_⟩
  · rintro rfl
    exact hne (Nat.zero_min _)
  · rw [remainingOutboundCapacity]
    omega

theorem guarded_endRespected (hop : EndRespected c op) :
    Guarded TCPSender.drivenStep TCPSender.EndRespected c.sender
      (c.senderOps op) := by
  apply guarded_senderOps
  · exact fun _ => trivial
  · exact fun _ _ => trivial
  · exact fun _ _ => trivial
  · rintro data rfl hactive
    exact accepted_eq_zero hop hactive
  · exact fun _ _ _ _ _ => trivial

theorem Ending.step (h : Ending c) (hop : EndRespected c op) :
    Ending (c.step op) := by
  have hsender := c.step_sender_invariant
    (P := fun s => TCPSender.Orderly s ∧ TCPSender.FinNoted s)
    (fun _ out error hs => ⟨hs.1.mute out error, hs.2.congr rfl rfl⟩)
    (fun _ op hs hop => ⟨hs.1.step hop, hs.2.drivenStep op⟩)
    ⟨h.orderly, h.finNoted⟩ (guarded_endRespected hop)
  exact ⟨hsender.1, hsender.2⟩

theorem Ending.finKept_step (h : Ending c) (hop : EndRespected c op) :
    TCPSender.FinKept c.sender (c.step op).sender := by
  have hrun : TCPSender.FinKept c.sender
      (run TCPSender.drivenStep c.sender (c.senderOps op)) :=
    run_related TCPSender.FinKept TCPSender.FinKept.refl
      (fun _ _ _ => TCPSender.FinKept.trans)
      (fun _ _ hs hop => ⟨TCPSender.Orderly.step hs hop, hs.finKept_step hop⟩)
      h.orderly (guarded_endRespected hop)
  obtain ⟨out, heq⟩ := c.step_sender op
  rw [heq]
  exact hrun

/-- Once the stream has ended or the connection is inactive, it stays so. -/
theorem Ending.run_ended
    {ops : List Op} (h : Ending c)
    (hops : Guarded TCPConnection.step EndRespected c ops)
    (hend : c.sender.streamIn.inputEnded = true ∨ c.active = false) :
    (run TCPConnection.step c ops).sender.streamIn.inputEnded = true ∨
      (run TCPConnection.step c ops).active = false := by
  have hstep : ∀ (c : TCPConnection) (op : Op),
      (Ending c ∧
        (c.sender.streamIn.inputEnded = true ∨ c.active = false)) →
      EndRespected c op → Ending (c.step op) ∧
        ((c.step op).sender.streamIn.inputEnded = true ∨
          (c.step op).active = false) := by
    rintro c op ⟨hc, hended⟩ hop
    refine ⟨hc.step hop, hended.imp ?_ ?_⟩
    · exact fun hended => step_inputEnded hended op
    · exact fun hinactive => step_inactive hc.orderly hinactive op
  exact (run_invariant hstep ⟨h, hend⟩ hops).2

/-- A write to an ended stream or an inactive connection accepts nothing. -/
theorem write_eq_zero
    {data : Bytes} (hop : EndRespected c (.write data))
    (hend : c.sender.streamIn.inputEnded = true ∨ c.active = false) :
    (c.write data).1 = 0 := by
  cases hactive : c.active with
  | true =>
      rw [hactive] at hend
      rw [write_of_active hactive]
      exact accepted_eq_zero hop hactive
        (hend.resolve_right (by decide))
  | false => rw [write_of_inactive hactive]

end Ending

/-! ## Runs -/

section Runs

variable {start : TCPConnection} {ops : List Op}

theorem finIsFinal_of_endRespected
    (h : Ending start) (hops : Guarded step EndRespected start ops) :
    FinIsFinal start ops where
  created := by
    rintro pre mid ⟨rest, rfl⟩ hfin
    obtain ⟨hpre, hmid⟩ := guarded_append.mp (guarded_append.mp hops).1
    have hending : Ending (run step start pre) :=
      run_invariant (fun _ _ hc hop => hc.step hop) h hpre
    have hkept := run_related
      (fun c d : TCPConnection => TCPSender.FinKept c.sender d.sender)
      (fun c => .refl c.sender) (fun _ _ _ => .trans)
      (fun _ _ hc hop => ⟨Ending.step hc hop, hc.finKept_step hop⟩)
      hending hmid
    rw [run_append]
    exact (hkept (hending.finNoted.mpr hfin)).2
  written := by
    rintro pre data ⟨rest, rfl⟩ hmem
    obtain ⟨front, back, rfl⟩ := List.append_of_mem hmem
    obtain ⟨hpre, hwrite⟩ := guarded_concat.mp (guarded_append.mp hops).1
    obtain ⟨hfront, -, hback⟩ := guarded_append.mp hpre
    have hending : Ending (run step start front) :=
      run_invariant (fun _ _ hc hop => hc.step hop) h hfront
    have hended : Ending ((run step start front).step .endInputStream) :=
      hending.step trivial
    refine write_eq_zero hwrite ?_
    rw [run_append]
    exact hended.run_ended hback (endInputStream_ends _)

theorem endRespected_of_finIsFinal
    (hstart : start.sender.streamIn.inputEnded = false)
    (h : FinIsFinal start ops) : Guarded step EndRespected start ops := by
  rw [guarded_iff_forall]
  intro pre op hpre
  cases op with
  | write data =>
      rintro ⟨hactive, hended, hdata, hroom⟩
      have hzero := h.written pre data hpre
        (mem_of_inputEnded hstart hended)
      rw [write_of_active hactive, ByteStream.write_fst] at hzero
      have hpos := List.length_pos_iff.mpr hdata
      rw [remainingOutboundCapacity] at hroom
      omega
  | connect => trivial
  | endInputStream => trivial
  | tick ms => trivial
  | segmentReceived seg => trivial
  | readInbound len => trivial

end Runs

/-- The FIN is final in exactly those runs in which no write offers bytes to
an ended stream that has room. -/
theorem finIsFinal_iff_endRespected
    (cfg : TCPConfig) (randomIsn : UInt32) (ops : List Op) :
    FinIsFinal (new cfg randomIsn) ops ↔
      Guarded step EndRespected (new cfg randomIsn) ops :=
  ⟨endRespected_of_finIsFinal rfl,
    finIsFinal_of_endRespected (ending_new cfg randomIsn)⟩

/-- After the handshake the application ends its stream, which sends the
FIN. -/
def finRun : List Op :=
  [.connect, .segmentReceived (peerSegment true false 0 1 10),
    .endInputStream]

/-- A byte that is written then is accepted, and sent behind the FIN. -/
theorem not_finIsFinal_finRun :
    ((run step (new smallConfig 0) finRun).write [97]).1 = 1 ∧
      (run step (new smallConfig 0) finRun).sender.finSent = true ∧
      (run step (new smallConfig 0) finRun).sender.nextSeqnoAbsolute = 2 ∧
      (run step (new smallConfig 0)
        (finRun ++ [.write [97]])).sender.nextSeqnoAbsolute = 4 ∧
      ¬ FinIsFinal (new smallConfig 0) (finRun ++ [.write [97]]) := by
  refine ⟨by decide, by decide, by decide, by decide, fun h => ?_⟩
  have hzero := h.written finRun [97] List.prefix_rfl (by decide)
  exact absurd hzero (by decide)

end TCPConnection

end Sponge
