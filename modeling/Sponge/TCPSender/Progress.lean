import Sponge.TCPSender.Window

/-!
# Progress of the sender

Nothing but an acknowledgment reopens the window, and nothing but a
retransmission provokes an acknowledgment.  So a sender that holds unsent data
must have a segment outstanding, or it waits forever.

An acknowledgment that leaves no room sets the remaining window to zero, also
when it is an outdated one and when nothing is outstanding any more.  This is
the only way in which a sender stalls that is driven as `TCPConnection` drives
it, with `fill_window` after every write and after the end of the input.
-/

namespace Sponge

namespace TCPSender

/-! ## When nothing is in flight -/

section Idle

variable {s t : TCPSender}

/-- After an emission something is in flight. -/
theorem Emits.eq_of_idle (h : Emits s t) (hidle : t.bytesInFlight = 0) :
    t = s := by
  rcases Relation.ReflTransGen.cases_tail h with heq | ⟨r, -, segment, he⟩
  · exact heq
  · have hpos := he.positive
    have hflight := he.inFlight
    omega

/-- Without a window there is no emission. -/
theorem Emits.eq_of_no_window
    (h : Emits s t) (hsyn : s.syn = true) (hzero : s.recvWdnSz = 0) :
    t = s := by
  rcases Relation.ReflTransGen.cases_head h with heq | ⟨r, ⟨segment, he⟩, -⟩
  · exact heq.symm
  · have hpos := he.positive
    have hwindow := he.window hsyn
    omega

/-- If nothing is in flight after `fill_window`, there was nothing to
send. -/
theorem fillWindow_of_idle
    (hsyn : s.syn = true) (hidle : s.fillWindow.bytesInFlight = 0) :
    s.fillWindow = s ∧ Drained s := by
  obtain ⟨hemits, hdrained⟩ := fillWindow_spec hsyn
  have heq := hemits.eq_of_idle hidle
  rw [heq] at hdrained
  exact ⟨heq, hdrained⟩

end Idle

/-- The acknowledgment leaves a remaining window of zero.  A window of zero
that acknowledges everything does not: it is treated as a window of one. -/
def ClosesWindow (s : TCPSender) (ackno : WrappingInt32)
    (windowSize : UInt16) : Prop :=
  s.absoluteAckno ackno ≤ s.nextSeqnoAbsolute ∧
    (add64 (s.absoluteAckno ackno) windowSize.toNat < s.nextSeqnoAbsolute ∨
      (windowSize.toNat ≠ 0 ∧
        add64 (s.absoluteAckno ackno) windowSize.toNat =
          s.nextSeqnoAbsolute))

instance closesWindowDecidable (s : TCPSender) (ackno : WrappingInt32)
    (windowSize : UInt16) : Decidable (ClosesWindow s ackno windowSize) :=
  inferInstanceAs (Decidable (_ ∧ _))

section Ack

variable {s : TCPSender} {ackno : WrappingInt32} {windowSize : UInt16}

/-- An acknowledgment that is applied and does not close the window. -/
theorem applied_window_pos
    (hsent : s.absoluteAckno ackno ≤ s.nextSeqnoAbsolute)
    (hroom : s.nextSeqnoAbsolute ≤
      add64 (s.absoluteAckno ackno) windowSize.toNat)
    (hopen : ¬ ClosesWindow s ackno windowSize) :
    0 < (s.applyAck (s.absoluteAckno ackno) windowSize).recvWdnSz := by
  have hwindow := applied_window hsent hroom
  have hsum := add64_eq_of_applied hsent hroom
  by_contra hzero
  refine hopen ⟨hsent, Or.inr ⟨?_, ?_⟩⟩
  · omega
  · omega

/-- If an acknowledgment is applied that closes the window and then nothing
is in flight, nothing was in flight before. -/
theorem Tracked.idle_of_applied
    (h : Tracked s) (hsent : s.absoluteAckno ackno ≤ s.nextSeqnoAbsolute)
    (hroom : s.nextSeqnoAbsolute ≤
      add64 (s.absoluteAckno ackno) windowSize.toNat)
    (hclosed : ClosesWindow s ackno windowSize)
    (hidle : (s.applyAck (s.absoluteAckno ackno)
      windowSize).bytesInFlight = 0) :
    s.bytesInFlight = 0 := by
  have hsum := add64_eq_of_applied hsent hroom
  have happlied := applied_applyAck s (s.absoluteAckno ackno) windowSize
  obtain ⟨una, acked, rest, hin⟩ := h
  obtain ⟨una', front, back, rfl, hnew, hboundary⟩ := hin.applied happlied
  have hback := hnew.inFlight_eq_zero_iff.mp hidle
  have huna : una' = s.nextSeqnoAbsolute := by
    have hflight := hnew.inFlight_eq
    rw [happlied.sameSent.next] at hflight
    omega
  rcases hboundary with hacked | hnone
  · obtain ⟨-, hless | ⟨hpos, heq⟩⟩ := hclosed
    · omega
    · omega
  · rw [hin.inFlight_eq_zero_iff, hback, hnone]
    rfl

/-- What is left when nothing is in flight after an acknowledgment. -/
theorem Tracked.ackReceived_of_idle
    (h : Tracked s) (hsyn : s.syn = true)
    (hidle : (s.ackReceived ackno windowSize).bytesInFlight = 0) :
    s.ackReceived ackno windowSize = s ∨
      (s.bytesInFlight = 0 ∧ ClosesWindow s ackno windowSize) ∨
      (0 < (s.ackReceived ackno windowSize).recvWdnSz ∧
        Drained (s.ackReceived ackno windowSize)) := by
  rcases ackReceived_cases s ackno windowSize with
    ⟨-, heq⟩ | ⟨hsent, hless, heq⟩ | ⟨hsent, hroom, heq⟩
  · exact Or.inl heq
  · rw [heq] at hidle
    exact Or.inr (Or.inl ⟨hidle, hsent, Or.inl hless⟩)
  · have happlied := applied_applyAck s (s.absoluteAckno ackno) windowSize
    rw [heq] at hidle ⊢
    obtain ⟨hsame, hdrained⟩ :=
      fillWindow_of_idle (happlied.sameSent.syn.trans hsyn) hidle
    rw [hsame] at hidle ⊢
    by_cases hclosed : ClosesWindow s ackno windowSize
    · have hbefore := h.idle_of_applied hsent hroom hclosed hidle
      exact Or.inr (Or.inl ⟨hbefore, hclosed⟩)
    · exact Or.inr (Or.inr
        ⟨applied_window_pos hsent hroom hclosed, hdrained⟩)

/-- With nothing in flight, an acknowledgment that closes the window leaves
the sender without both. -/
theorem Tracked.stuck_of_closesWindow
    (h : Tracked s) (hsyn : s.syn = true) (hidle : s.bytesInFlight = 0)
    (hclosed : ClosesWindow s ackno windowSize) :
    (s.ackReceived ackno windowSize).bytesInFlight = 0 ∧
      (s.ackReceived ackno windowSize).recvWdnSz = 0 := by
  rcases ackReceived_cases s ackno windowSize with
    ⟨hbeyond, -⟩ | ⟨-, -, heq⟩ | ⟨hsent, hroom, heq⟩
  · exact absurd hclosed.1 (not_le.mpr hbeyond)
  · rw [heq]
    exact ⟨hidle, rfl⟩
  · have happlied := applied_applyAck s (s.absoluteAckno ackno) windowSize
    have hwindow := applied_window hsent hroom
    have hsum := add64_eq_of_applied hsent hroom
    have hzero :
        (s.applyAck (s.absoluteAckno ackno) windowSize).recvWdnSz = 0 := by
      obtain ⟨-, hless | ⟨hpos, heq⟩⟩ := hclosed
      · omega
      · omega
    have hsame := (fillWindow_emits _).eq_of_no_window
      (happlied.sameSent.syn.trans hsyn) hzero
    rw [heq, hsame]
    refine ⟨?_, hzero⟩
    obtain ⟨una, acked, rest, hin⟩ := h
    obtain ⟨una', front, back, hsplit, hnew, -⟩ := hin.applied happlied
    have hrest := hin.inFlight_eq_zero_iff.mp hidle
    rw [hrest] at hsplit
    rw [hnew.inFlight_eq_zero_iff]
    exact (List.append_eq_nil_iff.mp hsplit.symm).2

end Ack

/-! ## The driven sender -/

/-- The steps of a sender that is driven as `TCPConnection` drives it: a write
and the end of the input are followed by `fill_window`. -/
def drivenStep (s : TCPSender) : Op → TCPSender
  | .write data => (s.step (.write data)).fillWindow
  | .endInput => (s.step .endInput).fillWindow
  | .fillWindow => s.step .fillWindow
  | .ackReceived ackno windowSize => s.step (.ackReceived ackno windowSize)
  | .tick ms => s.step (.tick ms)
  | .sendEmptySegment => s.step .sendEmptySegment

/-- Something remains to be sent: a byte, or the end of the input. -/
def Unsent (s : TCPSender) : Prop :=
  0 < s.streamIn.bufferSize ∨
    (s.streamIn.inputEnded = true ∧ s.streamIn.bufferSize = 0 ∧
      ∀ e ∈ s.created, e.2.header.fin = false)

instance unsentDecidable (s : TCPSender) : Decidable (Unsent s) :=
  inferInstanceAs (Decidable (_ ∨ _))

/-- As long as something remains to be sent, a segment is outstanding and the
timer is running. -/
def NotStalled (s : TCPSender) : Prop :=
  Unsent s → s.outstandingSegments.isEmpty = false ∧ s.timerOn = true

instance notStalledDecidable (s : TCPSender) : Decidable (NotStalled s) :=
  inferInstanceAs (Decidable (_ → _))

/-- An acknowledgment does not close the window when nothing is
outstanding. -/
def KeepsWindow (s : TCPSender) : Op → Prop
  | .ackReceived ackno windowSize =>
      ¬ (s.outstandingSegments.isEmpty = true ∧
        ClosesWindow s ackno windowSize)
  | .write _ => True
  | .endInput => True
  | .fillWindow => True
  | .tick _ => True
  | .sendEmptySegment => True

instance keepsWindowDecidable (s : TCPSender) :
    ∀ op, Decidable (KeepsWindow s op)
  | .ackReceived _ _ => inferInstanceAs (Decidable (¬ _))
  | .write _ => isTrue trivial
  | .endInput => isTrue trivial
  | .fillWindow => isTrue trivial
  | .tick _ => isTrue trivial
  | .sendEmptySegment => isTrue trivial

/-- What holds throughout every run of a driven sender. -/
structure Driven (capacity : ℕ) (s : TCPSender) : Prop where
  tracked : Tracked s
  finNoted : FinNoted s
  syn : s.syn = true
  drained : Drained s
  cap : s.streamIn.cap = capacity

/-- When nothing is in flight, there is a window. -/
def WindowOpen (s : TCPSender) : Prop :=
  s.bytesInFlight = 0 → 0 < s.recvWdnSz

section Driven

variable {capacity : ℕ} {s t : TCPSender}

/-- `fill_window` leaves a drained sender. -/
theorem driven_fillWindow
    (htracked : Tracked s) (hnoted : FinNoted s) (hsyn : s.syn = true)
    (hcap : s.streamIn.cap = capacity) : Driven capacity s.fillWindow := by
  obtain ⟨hemits, hdrained⟩ := fillWindow_spec hsyn
  exact
    { tracked := htracked.fillWindow
      finNoted := hnoted.emits hemits
      syn := hemits.syn hsyn
      drained := hdrained
      cap := hemits.cap.trans hcap }

/-- A step that neither sends anything nor touches the window. -/
theorem Driven.sameSent
    (h : Driven capacity s) (htracked : Tracked t) (hsame : SameSent s t)
    (hwindow : t.recvWdnSz = s.recvWdnSz) : Driven capacity t where
  tracked := htracked
  finNoted := h.finNoted.congr hsame.created hsame.finSent
  syn := hsame.syn.trans h.syn
  drained := by
    unfold Drained
    rw [hwindow, hsame.streamIn, hsame.finSent]
    exact h.drained
  cap := by
    rw [hsame.streamIn]
    exact h.cap

theorem Driven.ackReceived
    (h : Driven capacity s) (ackno : WrappingInt32) (windowSize : UInt16) :
    Driven capacity (s.ackReceived ackno windowSize) := by
  apply ackReceived_rule h
  · exact
      { tracked := h.tracked.congr rfl rfl rfl rfl rfl
        finNoted := h.finNoted.congr rfl rfl
        syn := h.syn
        drained := Or.inl rfl
        cap := h.cap }
  · intro _
    have happlied := applied_applyAck s (s.absoluteAckno ackno) windowSize
    have hsame := happlied.sameSent
    apply driven_fillWindow
    · exact h.tracked.applied happlied
    · exact h.finNoted.congr hsame.created hsame.finSent
    · exact hsame.syn.trans h.syn
    · rw [hsame.streamIn]
      exact h.cap

theorem Driven.step (h : Driven capacity s) (op : Op) :
    Driven capacity (s.drivenStep op) := by
  cases op with
  | write data =>
      exact driven_fillWindow (h.tracked.step (.write data))
        (h.finNoted.step (.write data)) h.syn
        ((ByteStream.write_cap s.streamIn data).trans h.cap)
  | endInput =>
      exact driven_fillWindow (h.tracked.step .endInput)
        (h.finNoted.step .endInput) h.syn h.cap
  | fillWindow => exact driven_fillWindow h.tracked h.finNoted h.syn h.cap
  | ackReceived ackno windowSize => exact h.ackReceived ackno windowSize
  | tick ms =>
      have hticked := ticked_tick s ms
      exact h.sameSent (h.tracked.tick ms) hticked.sameSent hticked.window
  | sendEmptySegment =>
      exact h.sameSent (h.tracked.step .sendEmptySegment)
        (sameSent_sendEmptySegment s) rfl

/-- `fill_window` keeps the window open. -/
theorem WindowOpen.fillWindow
    (h : WindowOpen s) (hsyn : s.syn = true) : WindowOpen s.fillWindow := by
  intro hidle
  obtain ⟨heq, -⟩ := fillWindow_of_idle hsyn hidle
  rw [heq] at hidle ⊢
  exact h hidle

/-- The window stays open exactly if no acknowledgment closes it when nothing
is outstanding. -/
theorem Driven.windowOpen_step_iff
    (h : Driven capacity s) (hopen : WindowOpen s) (op : Op) :
    WindowOpen (s.drivenStep op) ↔ KeepsWindow s op := by
  cases op with
  | write data =>
      have hwrite : WindowOpen (s.step (.write data)) := hopen
      exact iff_of_true (hwrite.fillWindow h.syn) trivial
  | endInput =>
      have hend : WindowOpen (s.step .endInput) := hopen
      exact iff_of_true (hend.fillWindow h.syn) trivial
  | fillWindow => exact iff_of_true (hopen.fillWindow h.syn) trivial
  | ackReceived ackno windowSize =>
      constructor
      · rintro hafter ⟨hempty, hclosed⟩
        have hidle := h.tracked.isEmpty_iff.mp hempty
        obtain ⟨hstuck, hzero⟩ :=
          h.tracked.stuck_of_closesWindow h.syn hidle hclosed
        have hpos := hafter hstuck
        rw [drivenStep, TCPSender.step, hzero] at hpos
        exact absurd hpos (lt_irrefl 0)
      · intro hsafe hidle
        rcases h.tracked.ackReceived_of_idle h.syn hidle with
          heq | ⟨hbefore, hclosed⟩ | ⟨hpos, -⟩
        · simp only [drivenStep, TCPSender.step, heq] at hidle ⊢
          exact hopen hidle
        · exact absurd ⟨h.tracked.isEmpty_iff.mpr hbefore, hclosed⟩ hsafe
        · exact hpos
  | tick ms =>
      have hticked := ticked_tick s ms
      refine iff_of_true (fun hidle => ?_) trivial
      have hflight : s.bytesInFlight = 0 := hticked.inFlight.symm.trans hidle
      have hpos := hopen hflight
      rw [← hticked.window] at hpos
      exact hpos
  | sendEmptySegment => exact iff_of_true hopen trivial

/-- With an open window the sender is not stalled. -/
theorem Driven.notStalled
    (h : Driven capacity s) (hopen : WindowOpen s) : NotStalled s := by
  intro hunsent
  have hbusy : s.bytesInFlight ≠ 0 := by
    intro hidle
    have hpos := hopen hidle
    rcases h.drained with hzero | ⟨hempty, hfin⟩
    · omega
    · rcases hunsent with hbytes | ⟨hended, -, hnone⟩
      · omega
      · obtain ⟨e, hmem, htrue⟩ := h.finNoted.mp (hfin hended)
        exact absurd ((hnone e hmem).symm.trans htrue) (by decide)
  obtain ⟨una, acked, rest, hin⟩ := h.tracked
  have hrest : rest ≠ [] := fun hnil =>
    hbusy (hin.inFlight_eq_zero_iff.mpr hnil)
  refine ⟨?_, hin.timerOn hrest⟩
  rw [← Bool.not_eq_true, hin.isEmpty_iff]
  exact hrest

/-- Without a window and without a segment in flight, a byte that is written
is stuck. -/
theorem Driven.stalls_of_closed
    (h : Driven capacity s) (hcap : 0 < capacity)
    (hclosed : ¬ WindowOpen s) :
    ¬ NotStalled (s.drivenStep (.write [0])) := by
  obtain ⟨hidle, hzero⟩ := Classical.not_imp.mp hclosed
  have hsame : s.drivenStep (.write [0]) = s.step (.write [0]) :=
    (fillWindow_emits _).eq_of_no_window h.syn (Nat.eq_zero_of_not_pos hzero)
  rw [hsame]
  intro hprogress
  have hempty := h.tracked.isEmpty_iff.mpr hidle
  have hbytes : 0 < (s.step (.write [0])).streamIn.bufferSize := by
    change 0 < (s.streamIn.write [0]).2.bufferSize
    have hroom := h.cap
    rw [ByteStream.write_bufferSize, ByteStream.remainingCapacity_eq, hroom,
      List.length_singleton]
    omega
  obtain ⟨hfalse, -⟩ := hprogress (Or.inl hbytes)
  exact absurd (hempty.symm.trans hfalse) (by decide)

end Driven

/-! ## Runs -/

section Runs

variable (capacity : ℕ) (retxTimeout : UInt16)
  (fixedIsn : Option WrappingInt32) (randomIsn : UInt32)

theorem driven_synSent :
    Driven capacity (synSent capacity retxTimeout fixedIsn randomIsn) := by
  obtain ⟨segment, he⟩ :=
    emission_synSent capacity retxTimeout fixedIsn randomIsn
  exact
    { tracked := (tracked_new _ _ _ _).emission he
      finNoted := (finNoted_new _ _ _ _).emission he
      syn := he.syn
      drained := Or.inl (he.windowSyn rfl)
      cap := he.cap }

theorem windowOpen_synSent :
    WindowOpen (synSent capacity retxTimeout fixedIsn randomIsn) := by
  obtain ⟨segment, he⟩ :=
    emission_synSent capacity retxTimeout fixedIsn randomIsn
  intro hidle
  have hpos := he.positive
  have hflight := he.inFlight
  omega

/-- The window is open throughout a run exactly if no acknowledgment closes
it when nothing is outstanding. -/
theorem windowOpen_iff_keepsWindow (ops : List Op) :
    (∀ pre, pre <+: ops →
      WindowOpen (run drivenStep
        (synSent capacity retxTimeout fixedIsn randomIsn) pre)) ↔
      Guarded drivenStep KeepsWindow
        (synSent capacity retxTimeout fixedIsn randomIsn) ops := by
  exact forall_prefix_iff_guarded
    (fun s op (hs : Driven capacity s) _ => hs.step op)
    (fun _ op hs _ hopen => hs.windowOpen_step_iff hopen op)
    (driven_synSent capacity retxTimeout fixedIsn randomIsn)
    (windowOpen_synSent capacity retxTimeout fixedIsn randomIsn)
    (guarded_of_forall (fun _ _ => trivial) _ ops)

/-- The sender does not stall as long as no acknowledgment closes the window
when nothing is outstanding, and after such an acknowledgment the next byte is
stuck. -/
theorem run_notStalled_of_keepsWindow (ops : List Op) :
    let start := synSent capacity retxTimeout fixedIsn randomIsn
    (Guarded drivenStep KeepsWindow start ops →
        ∀ pre, pre <+: ops → NotStalled (run drivenStep start pre)) ∧
      (0 < capacity → ¬ Guarded drivenStep KeepsWindow start ops →
        ∃ pre, pre <+: ops ∧
          ¬ NotStalled (run drivenStep start (pre ++ [.write [0]]))) := by
  intro start
  have hdriven : ∀ pre, Driven capacity (run drivenStep start pre) :=
    run_preserves (fun _ op hs => hs.step op)
      (driven_synSent capacity retxTimeout fixedIsn randomIsn)
  have hiff := windowOpen_iff_keepsWindow capacity retxTimeout fixedIsn
    randomIsn ops
  constructor
  · intro hops pre hpre
    exact (hdriven pre).notStalled (hiff.mpr hops pre hpre)
  · intro hcap hops
    rw [← hiff] at hops
    obtain ⟨pre, hfails⟩ := not_forall.mp hops
    obtain ⟨hpre, hclosed⟩ := Classical.not_imp.mp hfails
    refine ⟨pre, hpre, ?_⟩
    rw [run_concat]
    exact (hdriven pre).stalls_of_closed hcap hclosed

end Runs

/-- An outdated acknowledgment arrives while a byte is outstanding, and a
window of zero when everything is acknowledged. -/
def promptRun : List Op :=
  [.ackReceived ⟨1⟩ 10, .write [97], .ackReceived ⟨2⟩ 10, .write [98],
    .ackReceived ⟨1⟩ 1, .ackReceived ⟨3⟩ 0, .endInput]

theorem run_notStalled_promptRun :
    Guarded drivenStep KeepsWindow (synSent 4 1000 (some ⟨0⟩) 0)
        promptRun ∧
      ∀ pre, pre <+: promptRun →
        NotStalled (run drivenStep (synSent 4 1000 (some ⟨0⟩) 0) pre) :=
  ⟨by decide, (run_notStalled_of_keepsWindow 4 1000 (some ⟨0⟩) 0
    promptRun).1 (by decide)⟩

/-- The acknowledgment of the SYN arrives again, with the smaller window that
it had at first, after the byte `a` has been acknowledged. -/
def staleRun : List Op :=
  [.ackReceived ⟨1⟩ 10, .write [97], .ackReceived ⟨2⟩ 10,
    .ackReceived ⟨1⟩ 1, .write [98]]

/-- After the outdated acknowledgment the byte `b` is in the stream, nothing
is outstanding and the timer is off. -/
theorem stalled_staleRun :
    ¬ NotStalled
      (run drivenStep (synSent 4 1000 (some ⟨0⟩) 0) staleRun) := by
  decide

end TCPSender

end Sponge
