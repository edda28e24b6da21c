import Sponge.TCPSender.FillWindow
import Sponge.TCPSender.Progress

/-!
# The retransmission timer

The timer, the timeout and the number of consecutive retransmissions are
changed by `send_segment`, `ack_received` and `tick`, each under a condition
of its own.  The invariant below ties them together: the timer runs exactly
while a segment is outstanding, and while it runs the timeout is the initial
one, doubled once for every retransmission counted.

It rests on the largest acknowledgment number so far.  That number is below
the next sequence number as long as something is outstanding, so the
acknowledgment that empties the queue is always a new largest one and resets
the count.
-/

namespace Sponge

namespace TCPSender

/-- The timer of a sender with the initial timeout `timeout`. -/
structure Timed (timeout : ℕ) (s : TCPSender) : Prop where
  tracked : Tracked s
  initial : s.initialRetransmissionTimeout = timeout
  on_iff : s.timerOn = true ↔ s.outstandingSegments.isEmpty = false
  rto_eq : s.timerOn = true →
    s.rto = timeout * 2 ^ s.consecutiveRetransmissions
  count_zero : s.timerOn = false → s.consecutiveRetransmissions = 0
  largest_le : s.maxAbsSeqno ≤ s.nextSeqnoAbsolute
  largest_lt : s.timerOn = true → s.maxAbsSeqno < s.nextSeqnoAbsolute

theorem timed_new
    (capacity : ℕ) (retxTimeout : UInt16) (fixedIsn : Option WrappingInt32)
    (randomIsn : UInt32) :
    Timed retxTimeout.toNat (new capacity retxTimeout fixedIsn randomIsn) where
  tracked := tracked_new capacity retxTimeout fixedIsn randomIsn
  initial := rfl
  on_iff := by simp [new, OrderedMap.empty, OrderedMap.isEmpty]
  rto_eq := by simp [new]
  count_zero := fun _ => rfl
  largest_le := le_rfl
  largest_lt := by simp [new]

/-! ## Sending -/

/-- The second sender may have started the timer, and has done nothing else
to it. -/
structure StartsTimer (s t : TCPSender) : Prop where
  initial : t.initialRetransmissionTimeout = s.initialRetransmissionTimeout
  count : t.consecutiveRetransmissions = s.consecutiveRetransmissions
  largest : t.maxAbsSeqno = s.maxAbsSeqno
  keeps : s.timerOn = true → t.timerOn = true ∧ t.rto = s.rto
  starts : s.timerOn = false → t.timerOn = true →
    t.rto = s.initialRetransmissionTimeout

section StartsTimer

variable {s t u : TCPSender}

theorem StartsTimer.of_same
    (hinitial : t.initialRetransmissionTimeout =
      s.initialRetransmissionTimeout)
    (hcount : t.consecutiveRetransmissions = s.consecutiveRetransmissions)
    (hlargest : t.maxAbsSeqno = s.maxAbsSeqno)
    (hon : t.timerOn = s.timerOn) (hrto : t.rto = s.rto) :
    StartsTimer s t where
  initial := hinitial
  count := hcount
  largest := hlargest
  keeps := fun hbefore => ⟨hon.trans hbefore, hrto⟩
  starts := fun hoff hafter =>
    absurd ((hon.trans hoff).symm.trans hafter) Bool.false_ne_true

theorem StartsTimer.refl (s : TCPSender) : StartsTimer s s :=
  .of_same rfl rfl rfl rfl rfl

theorem StartsTimer.trans (h : StartsTimer s t) (h' : StartsTimer t u) :
    StartsTimer s u where
  initial := h'.initial.trans h.initial
  count := h'.count.trans h.count
  largest := h'.largest.trans h.largest
  keeps := by
    intro hon
    obtain ⟨hmid, hrto⟩ := h.keeps hon
    obtain ⟨hend, hrto'⟩ := h'.keeps hmid
    exact ⟨hend, hrto'.trans hrto⟩
  starts := by
    intro hoff hend
    cases hmid : t.timerOn with
    | true => exact (h'.keeps hmid).2.trans (h.starts hoff hmid)
    | false => exact (h'.starts hmid hend).trans h.initial

theorem startsTimer_sendSegment (s : TCPSender) (segment : TCPSegment) :
    StartsTimer s (s.sendSegment segment) := by
  unfold sendSegment startTimer
  cases hon : s.timerOn with
  | true => exact ⟨rfl, rfl, rfl, fun _ => ⟨rfl, rfl⟩, by simp [hon]⟩
  | false => exact ⟨rfl, rfl, rfl, by simp [hon], fun _ _ => rfl⟩

theorem startsTimer_fillWindow (s : TCPSender) :
    StartsTimer s s.fillWindow := by
  apply fillWindow_rule
  · rintro r t ⟨_, _, _, _, _, _, rfl⟩ hr
    exact hr.trans (.of_same rfl rfl rfl rfl rfl)
  · intro r segment _ hr
    exact hr.trans (startsTimer_sendSegment r segment)
  · exact .refl s

end StartsTimer

section Preservation

variable {timeout : ℕ} {s t : TCPSender}

/-- After an emission a segment is outstanding and the next sequence number
has moved. -/
theorem Emits.eq_or_lt (h : Emits s t) :
    t = s ∨ (s.nextSeqnoAbsolute < t.nextSeqnoAbsolute ∧
      t.timerOn = true ∧ 0 < t.bytesInFlight) := by
  rcases Relation.ReflTransGen.cases_tail h with heq | ⟨r, hfirst, seg, he⟩
  · exact Or.inl heq
  · have hle := Emits.next_le hfirst
    have hpos := he.positive
    refine Or.inr ⟨?_, he.timerOn, ?_⟩
    · rw [he.next]
      omega
    · rw [he.inFlight]
      omega

theorem Timed.fillWindow (h : Timed timeout s) :
    Timed timeout s.fillWindow := by
  have hstarts := startsTimer_fillWindow s
  have htracked := h.tracked.fillWindow
  rcases (fillWindow_emits s).eq_or_lt with heq | ⟨hnext, hon, hflight⟩
  · rw [heq]
    exact h
  · have hlargest := h.largest_le
    exact
      { tracked := htracked
        initial := hstarts.initial.trans h.initial
        on_iff := by
          rw [← Bool.not_eq_true, htracked.isEmpty_iff]
          exact ⟨fun _ => hflight.ne', fun _ => hon⟩
        rto_eq := by
          intro _
          rw [hstarts.count]
          cases hbefore : s.timerOn with
          | true => rw [(hstarts.keeps hbefore).2, h.rto_eq hbefore]
          | false =>
              rw [hstarts.starts hbefore hon, h.initial,
                h.count_zero hbefore, pow_zero, mul_one]
        count_zero := fun hoff =>
          absurd (hoff.symm.trans hon) Bool.false_ne_true
        largest_le := by
          rw [hstarts.largest]
          exact hlargest.trans hnext.le
        largest_lt := by
          intro _
          rw [hstarts.largest]
          exact lt_of_le_of_lt hlargest hnext }

/-- Only the fields that `Timed` mentions matter. -/
theorem Timed.congr
    (h : Timed timeout s) (hcreated : t.created = s.created)
    (hnext : t.nextSeqnoAbsolute = s.nextSeqnoAbsolute)
    (hinitial : t.initialRetransmissionTimeout =
      s.initialRetransmissionTimeout)
    (hout : t.outstandingSegments = s.outstandingSegments)
    (hflight : t.bytesInFlight = s.bytesInFlight)
    (hon : t.timerOn = s.timerOn) (hlargest : t.maxAbsSeqno = s.maxAbsSeqno)
    (hrto : t.timerOn = true →
      t.rto = timeout * 2 ^ t.consecutiveRetransmissions)
    (hzero : t.timerOn = false → t.consecutiveRetransmissions = 0) :
    Timed timeout t where
  tracked := h.tracked.congr hcreated hnext hout hflight hon
  initial := hinitial.trans h.initial
  on_iff := by
    rw [hon, hout]
    exact h.on_iff
  rto_eq := hrto
  count_zero := hzero
  largest_le := by
    rw [hlargest, hnext]
    exact h.largest_le
  largest_lt := by
    rw [hon, hlargest, hnext]
    exact h.largest_lt

/-! ## Acknowledgments -/

theorem removeAcknowledged_frame (s : TCPSender) :
    ∃ flight out, s.removeAcknowledged =
      { s with bytesInFlight := flight, outstandingSegments := out } := by
  cases hfind : s.outstandingSegments.find? s.absAckno with
  | none =>
      refine ⟨s.bytesInFlight, s.outstandingSegments, ?_⟩
      simp only [removeAcknowledged, hfind]
  | some segment => exact ⟨_, _, removeAcknowledged_of_some hfind⟩

/-- A new largest acknowledgment number resets the timeout and the count. -/
theorem restartTimer_backOff (s : TCPSender) :
    s.restartTimer.initialRetransmissionTimeout =
        s.initialRetransmissionTimeout ∧
      ((s.maxAbsSeqno < s.absAckno ∧
          s.restartTimer.maxAbsSeqno = s.absAckno ∧
          s.restartTimer.rto = s.initialRetransmissionTimeout ∧
          s.restartTimer.consecutiveRetransmissions = 0) ∨
        (s.absAckno ≤ s.maxAbsSeqno ∧
          s.restartTimer.maxAbsSeqno = s.maxAbsSeqno ∧
          s.restartTimer.rto = s.rto ∧
          s.restartTimer.consecutiveRetransmissions =
            s.consecutiveRetransmissions)) := by
  unfold restartTimer
  by_cases hnew : s.absAckno > s.maxAbsSeqno
  · simp only [if_pos hnew]
    refine ⟨?_, Or.inl ⟨hnew, ?_⟩⟩
    · split <;> rfl
    · split
      · exact ⟨rfl, rfl, rfl⟩
      · exact ⟨rfl, rfl, rfl⟩
  · simp only [if_neg hnew]
    refine ⟨?_, Or.inr ⟨not_lt.mp hnew, ?_⟩⟩
    · split <;> rfl
    · split
      · exact ⟨rfl, rfl, rfl⟩
      · exact ⟨rfl, rfl, rfl⟩

theorem applyAck_backOff
    (s : TCPSender) (absAckno : ℕ) (windowSize : UInt16) :
    (s.applyAck absAckno windowSize).initialRetransmissionTimeout =
        s.initialRetransmissionTimeout ∧
      ((s.maxAbsSeqno < absAckno ∧
          (s.applyAck absAckno windowSize).maxAbsSeqno = absAckno ∧
          (s.applyAck absAckno windowSize).rto =
            s.initialRetransmissionTimeout ∧
          (s.applyAck absAckno windowSize).consecutiveRetransmissions =
            0) ∨
        (absAckno ≤ s.maxAbsSeqno ∧
          (s.applyAck absAckno windowSize).maxAbsSeqno = s.maxAbsSeqno ∧
          (s.applyAck absAckno windowSize).rto = s.rto ∧
          (s.applyAck absAckno windowSize).consecutiveRetransmissions =
            s.consecutiveRetransmissions)) := by
  obtain ⟨flight, out, hframe⟩ := removeAcknowledged_frame
    { s with absAckno := absAckno, wdnSz := windowSize.toNat }
  unfold applyAck
  simp only
  rw [hframe]
  exact restartTimer_backOff _

variable {absAckno : ℕ} {windowSize : UInt16}

/-- The last outstanding segment ends at the next sequence number. -/
theorem Tracked.exists_find?_next
    (h : Tracked s) (hne : s.outstandingSegments.isEmpty = false) :
    ∃ segment, s.outstandingSegments.find? s.nextSeqnoAbsolute =
      some segment := by
  obtain ⟨una, acked, rest, hin⟩ := h
  have hrest : rest ≠ [] := by
    intro hnil
    rw [hin.isEmpty_iff.mpr hnil] at hne
    exact absurd hne (by decide)
  obtain ⟨segment, hmem⟩ := hin.rest_contiguous.exists_mem_stops hrest
  rw [← hin.outstanding_eq] at hmem
  exact ⟨segment, OrderedMap.find?_of_mem hmem⟩

/-- An acknowledgment of everything leaves nothing outstanding. -/
theorem Tracked.isEmpty_of_applied
    (h : Tracked s) (ha : Applied s absAckno windowSize t)
    (hall : absAckno = s.nextSeqnoAbsolute) :
    t.outstandingSegments.isEmpty = true := by
  have hkeys : ∀ e ∈ s.outstandingSegments.entries,
      e.1 ≤ s.nextSeqnoAbsolute := by
    obtain ⟨una, acked, rest, hin⟩ := h
    rw [hin.outstanding_eq]
    exact fun e he => hin.rest_contiguous.stop_le he
  rcases ha.removed with ⟨hnone, hout, -⟩ | ⟨segment, -, hout, -⟩
  · rw [hout]
    by_contra hne
    obtain ⟨segment, hsome⟩ :=
      h.exists_find?_next (Bool.eq_false_of_not_eq_true hne)
    rw [hall, hsome] at hnone
    exact absurd hnone (by simp)
  · rw [hout, OrderedMap.isEmpty, OrderedMap.filterKeys_entries,
      List.isEmpty_iff, List.filter_eq_nil_iff]
    intro e he
    rw [decide_eq_true_eq, hall, not_lt]
    exact hkeys e he

/-- Only an acknowledgment of everything empties the queue. -/
theorem Tracked.eq_next_of_applied
    (h : Tracked s) (ha : Applied s absAckno windowSize t)
    (hbefore : s.outstandingSegments.isEmpty = false)
    (hafter : t.outstandingSegments.isEmpty = true) :
    absAckno = s.nextSeqnoAbsolute := by
  obtain ⟨una, acked, rest, hin⟩ := h
  obtain ⟨una', front, back, rfl, hnew, hboundary⟩ := hin.applied ha
  have hback := hnew.isEmpty_iff.mp hafter
  have huna := (hnew.rest_contiguous.eq_nil_iff hnew.positive).mp hback
  rw [ha.sameSent.next] at huna
  rcases hboundary with hacked | hnone
  · exact hacked.symm.trans huna
  · have hempty := hin.isEmpty_iff.mpr (by rw [hback, hnone]; rfl)
    exact absurd (hbefore.symm.trans hempty) Bool.false_ne_true

/-- The timer runs after an acknowledgment exactly if something is left. -/
theorem Timed.on_iff_of_applied
    (h : Timed timeout s) (ha : Applied s absAckno windowSize t) :
    t.timerOn = true ↔ t.outstandingSegments.isEmpty = false := by
  rw [ha.timerOn, Bool.and_eq_true, Bool.not_eq_true']
  refine ⟨fun hon => hon.2, fun hne => ⟨h.on_iff.mpr ?_, hne⟩⟩
  by_contra hempty
  obtain ⟨una, acked, rest, hin⟩ := h.tracked
  obtain ⟨una', front, back, hsplit, hnew, -⟩ := hin.applied ha
  rw [hin.isEmpty_iff.mp (Bool.eq_true_of_not_eq_false hempty)] at hsplit
  have hnone := hnew.isEmpty_iff.mpr (List.append_eq_nil_iff.mp hsplit.symm).2
  exact absurd (hne.symm.trans hnone) Bool.false_ne_true

/-- The timer runs on only if not everything has been acknowledged. -/
theorem Timed.lt_next_of_applied
    (h : Timed timeout s) (ha : Applied s absAckno windowSize t)
    (hsent : absAckno ≤ s.nextSeqnoAbsolute) (hon : t.timerOn = true) :
    absAckno < s.nextSeqnoAbsolute := by
  refine lt_of_le_of_ne hsent fun hall => ?_
  have hempty := h.tracked.isEmpty_of_applied ha hall
  have hne := (h.on_iff_of_applied ha).mp hon
  exact absurd (hne.symm.trans hempty) Bool.false_ne_true

/-- An old acknowledgment does not empty the queue, and so it does not stop
the timer. -/
theorem Timed.off_of_applied
    (h : Timed timeout s) (ha : Applied s absAckno windowSize t)
    (hold : absAckno ≤ s.maxAbsSeqno) (hoff : t.timerOn = false) :
    s.timerOn = false := by
  by_contra hbefore
  have hon := Bool.eq_true_of_not_eq_false hbefore
  have hempty : t.outstandingSegments.isEmpty = true := by
    by_contra hne
    have hon' := (h.on_iff_of_applied ha).mpr (Bool.eq_false_of_not_eq_true hne)
    exact absurd (hoff.symm.trans hon') Bool.false_ne_true
  have hall := h.tracked.eq_next_of_applied ha (h.on_iff.mp hon) hempty
  have hlt := h.largest_lt hon
  omega

theorem Timed.applyAck
    (h : Timed timeout s) (hsent : absAckno ≤ s.nextSeqnoAbsolute)
    (windowSize : UInt16) :
    Timed timeout (s.applyAck absAckno windowSize) := by
  have ha := applied_applyAck s absAckno windowSize
  obtain ⟨hinitial, hback⟩ := applyAck_backOff s absAckno windowSize
  generalize s.applyAck absAckno windowSize = t at ha hinitial hback ⊢
  have hwas : t.timerOn = true → s.timerOn = true := by
    intro hon
    rw [ha.timerOn, Bool.and_eq_true] at hon
    exact hon.1
  rcases hback with ⟨-, hlargest, hrto, hcount⟩ |
    ⟨hold, hlargest, hrto, hcount⟩
  · exact
      { tracked := h.tracked.applied ha
        initial := hinitial.trans h.initial
        on_iff := h.on_iff_of_applied ha
        rto_eq := by
          intro _
          rw [hrto, hcount, h.initial, pow_zero, mul_one]
        count_zero := fun _ => hcount
        largest_le := by
          rw [hlargest, ha.sameSent.next]
          exact hsent
        largest_lt := by
          rw [hlargest, ha.sameSent.next]
          exact h.lt_next_of_applied ha hsent }
  · exact
      { tracked := h.tracked.applied ha
        initial := hinitial.trans h.initial
        on_iff := h.on_iff_of_applied ha
        rto_eq := by
          intro hon
          rw [hrto, hcount]
          exact h.rto_eq (hwas hon)
        count_zero := by
          intro hoff
          rw [hcount]
          exact h.count_zero (h.off_of_applied ha hold hoff)
        largest_le := by
          rw [hlargest, ha.sameSent.next]
          exact h.largest_le
        largest_lt := by
          intro hon
          rw [hlargest, ha.sameSent.next]
          exact h.largest_lt (hwas hon) }

theorem Timed.ackReceived
    (h : Timed timeout s) (ackno : WrappingInt32) (windowSize : UInt16) :
    Timed timeout (s.ackReceived ackno windowSize) := by
  apply ackReceived_rule h
  · exact h.congr rfl rfl rfl rfl rfl rfl rfl h.rto_eq h.count_zero
  · intro hsent
    exact (h.applyAck hsent windowSize).fillWindow

theorem ackReceived_count_le
    (s : TCPSender) (ackno : WrappingInt32) (windowSize : UInt16) :
    (s.ackReceived ackno windowSize).consecutiveRetransmissions ≤
      s.consecutiveRetransmissions := by
  apply ackReceived_rule (P := fun t =>
    t.consecutiveRetransmissions ≤ s.consecutiveRetransmissions)
  · exact le_rfl
  · exact le_rfl
  · intro _
    rw [(startsTimer_fillWindow _).count]
    obtain ⟨-, ⟨-, -, -, hcount⟩ | ⟨-, -, -, hcount⟩⟩ :=
      applyAck_backOff s (s.absoluteAckno ackno) windowSize
    · rw [hcount]
      exact Nat.zero_le _
    · rw [hcount]

/-! ## The clock -/

/-- While a segment is outstanding, a tick leaves timeout and count alone or
doubles the one and increases the other. -/
theorem tick_backOff
    (hon : s.timerOn = true → s.outstandingSegments.isEmpty = false)
    (ms : ℕ) :
    (s.tick ms).initialRetransmissionTimeout =
        s.initialRetransmissionTimeout ∧
      (s.tick ms).maxAbsSeqno = s.maxAbsSeqno ∧
      (((s.tick ms).rto = s.rto ∧
          (s.tick ms).consecutiveRetransmissions =
            s.consecutiveRetransmissions) ∨
        (s.timerOn = true ∧ (s.tick ms).rto = s.rto * 2 % 2 ^ 32 ∧
          (s.tick ms).consecutiveRetransmissions =
            (s.consecutiveRetransmissions + 1) % 2 ^ 32)) := by
  unfold tick
  by_cases htimer : s.timerOn = true
  · have hadvance : s.advanceTimer ms =
        { s with elapsedTime := add64 s.elapsedTime ms } := by
      rw [advanceTimer, hon htimer]
      rfl
    simp only [if_pos htimer, hadvance]
    split
    · obtain ⟨out, hretransmit, -⟩ := retransmit_frame
        { s with elapsedTime := add64 s.elapsedTime ms }
      simp only [hretransmit, backOff]
      split
      · exact ⟨rfl, rfl, Or.inr ⟨htimer, rfl, rfl⟩⟩
      · exact ⟨rfl, rfl, Or.inl ⟨rfl, rfl⟩⟩
    · exact ⟨rfl, rfl, Or.inl ⟨rfl, rfl⟩⟩
  · rw [if_neg htimer]
    exact ⟨rfl, rfl, Or.inl ⟨rfl, rfl⟩⟩

/-- As long as the count is small, doubling does not wrap around. -/
theorem Timed.rto_double_lt
    (h : Timed timeout s) (htimeout : timeout < 2 ^ 16)
    (hcount : s.consecutiveRetransmissions ≤ TCPConfig.maxRetxAttempts)
    (hon : s.timerOn = true) : s.rto * 2 < 2 ^ 32 := by
  have hpow : 2 ^ s.consecutiveRetransmissions ≤
      2 ^ TCPConfig.maxRetxAttempts :=
    Nat.pow_le_pow_right (by norm_num) hcount
  have hmul := Nat.mul_le_mul htimeout.le hpow
  rw [h.rto_eq hon]
  have hbound : 2 ^ 16 * 2 ^ TCPConfig.maxRetxAttempts * 2 < 2 ^ 32 := by
    decide
  omega

theorem Timed.tick
    (h : Timed timeout s) (htimeout : timeout < 2 ^ 16)
    (hcount : s.consecutiveRetransmissions ≤ TCPConfig.maxRetxAttempts)
    (ms : ℕ) :
    Timed timeout (s.tick ms) ∧
      (s.tick ms).consecutiveRetransmissions ≤
        s.consecutiveRetransmissions + 1 := by
  have hticked := ticked_tick s ms
  obtain ⟨hinitial, hlargest, hback⟩ := tick_backOff h.on_iff.mp ms
  have htimed := h.congr hticked.sameSent.created hticked.sameSent.next
    hinitial hticked.outstanding hticked.inFlight hticked.timerOn hlargest
  rcases hback with ⟨hrto, hsame⟩ | ⟨hon, hrto, hmore⟩
  · refine ⟨htimed ?_ ?_, by omega⟩
    · rw [hticked.timerOn, hrto, hsame]
      exact h.rto_eq
    · rw [hticked.timerOn, hsame]
      exact h.count_zero
  · have hfits := h.rto_double_lt htimeout hcount hon
    have hsmall : s.consecutiveRetransmissions + 1 < 2 ^ 32 :=
      lt_of_le_of_lt (Nat.succ_le_succ hcount) (by decide)
    rw [Nat.mod_eq_of_lt hfits] at hrto
    rw [Nat.mod_eq_of_lt hsmall] at hmore
    refine ⟨htimed ?_ ?_, hmore.le⟩
    · intro _
      rw [hrto, hmore, h.rto_eq hon, pow_succ, mul_assoc]
    · intro hoff
      rw [hticked.timerOn, hon] at hoff
      exact absurd hoff (by decide)

/-! ## One operation -/

/-- Neither segments in the queue nor what the stream holds matters. -/
theorem Timed.drivenStep
    (h : Timed timeout s) {op : Op} (hop : ∀ ms, op ≠ .tick ms) :
    Timed timeout (s.drivenStep op) ∧
      (s.drivenStep op).consecutiveRetransmissions ≤
        s.consecutiveRetransmissions := by
  have hfill : ∀ r, Timed timeout r →
      r.consecutiveRetransmissions = s.consecutiveRetransmissions →
      Timed timeout r.fillWindow ∧
        r.fillWindow.consecutiveRetransmissions ≤
          s.consecutiveRetransmissions := by
    intro r hr hcount
    rw [(startsTimer_fillWindow r).count, hcount]
    exact ⟨hr.fillWindow, le_rfl⟩
  cases op with
  | write data =>
      exact hfill (s.step (.write data))
        (h.congr rfl rfl rfl rfl rfl rfl rfl h.rto_eq h.count_zero) rfl
  | endInput =>
      exact hfill (s.step .endInput)
        (h.congr rfl rfl rfl rfl rfl rfl rfl h.rto_eq h.count_zero) rfl
  | fillWindow => exact hfill s h rfl
  | ackReceived ackno windowSize =>
      exact ⟨h.ackReceived ackno windowSize,
        ackReceived_count_le s ackno windowSize⟩
  | tick ms => exact absurd rfl (hop ms)
  | sendEmptySegment =>
      exact ⟨h.congr rfl rfl rfl rfl rfl rfl rfl h.rto_eq h.count_zero,
        le_rfl⟩

end Preservation

end TCPSender

end Sponge
