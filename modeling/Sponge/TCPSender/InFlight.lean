import Sponge.Support.Contiguous
import Sponge.Support.Run
import Sponge.TCPSender.Emission

/-!
# Acknowledgments, the clock and the segments in flight

An acknowledgment is ignored, or it closes the window, or it is applied and
followed by `fill_window`; the clock at most queues the first outstanding
segment again.  Neither creates a segment itself.

The segments that have been created lie end to end in the sequence space.  An
acknowledgment removes outstanding segments only up to one that ends at the
acknowledgment number, so the outstanding segments are always the created ones
from some point on, and the bytes in flight are what lies between that point
and the next sequence number.
-/

namespace Sponge

namespace TCPSender

/-! ## What acknowledgments and the clock leave unchanged -/

/-- Everything about what has been sent is the same in both states. -/
structure SameSent (s t : TCPSender) : Prop where
  isn : t.isn = s.isn
  created : t.created = s.created
  next : t.nextSeqnoAbsolute = s.nextSeqnoAbsolute
  streamIn : t.streamIn = s.streamIn
  syn : t.syn = s.syn
  finSent : t.finSent = s.finSent
  windowUnderflow : t.windowUnderflow = s.windowUnderflow

theorem sameSent_closeWindow (s : TCPSender) : SameSent s s.closeWindow :=
  ⟨rfl, rfl, rfl, rfl, rfl, rfl, rfl⟩

theorem sameSent_sendEmptySegment (s : TCPSender) :
    SameSent s s.sendEmptySegment :=
  ⟨rfl, rfl, rfl, rfl, rfl, rfl, rfl⟩

section Ack

variable (s : TCPSender)

theorem removeAcknowledged_of_some
    {s : TCPSender} {segment : TCPSegment}
    (h : s.outstandingSegments.find? s.absAckno = some segment) :
    s.removeAcknowledged =
      { s with
        bytesInFlight :=
          (s.outstandingSegments.filterKeys (· < s.absAckno)).entries.foldl
            (fun n e => n - e.2.lengthInSequenceSpace) s.bytesInFlight -
              segment.lengthInSequenceSpace
        outstandingSegments :=
          s.outstandingSegments.filterKeys (s.absAckno < ·) } := by
  simp only [removeAcknowledged, h]

/-- Only the timer changes, and it stops when nothing is outstanding. -/
theorem restartTimer_frame :
    ∃ largest timeout count elapsed, s.restartTimer =
      { s with
        maxAbsSeqno := largest
        rto := timeout
        consecutiveRetransmissions := count
        elapsedTime := elapsed
        timerOn := s.timerOn && !s.outstandingSegments.isEmpty } := by
  unfold restartTimer
  by_cases hempty : s.outstandingSegments.isEmpty = true
  · by_cases hnew : s.absAckno > s.maxAbsSeqno
    · simp only [if_pos hnew, hempty, Bool.not_true,
        Bool.and_false]
      exact ⟨_, _, _, _, rfl⟩
    · simp only [if_neg hnew, hempty, Bool.not_true,
        Bool.and_false]
      exact ⟨_, _, _, _, rfl⟩
  · have hfalse := Bool.eq_false_of_not_eq_true hempty
    by_cases hnew : s.absAckno > s.maxAbsSeqno
    · simp only [if_pos hnew, hfalse, Bool.not_false,
        Bool.and_true]
      exact ⟨_, _, _, _, rfl⟩
    · simp only [if_neg hnew, hfalse, Bool.not_false,
        Bool.and_true]
      exact ⟨_, _, _, _, rfl⟩

variable (absAckno : ℕ) (windowSize : UInt16)

/-- What applying an acknowledgment changes. -/
structure Applied (t : TCPSender) : Prop where
  sameSent : SameSent s t
  segmentsOut : t.segmentsOut = s.segmentsOut
  absAckno_eq : t.absAckno = absAckno
  window : t.recvWdnSz =
    if windowSize.toNat = 0 then 1
    else
      sub64 (add64 absAckno windowSize.toNat) s.nextSeqnoAbsolute % 2 ^ 16
  timerOn : t.timerOn = (s.timerOn && !t.outstandingSegments.isEmpty)
  removed :
    (s.outstandingSegments.find? absAckno = none ∧
        t.outstandingSegments = s.outstandingSegments ∧
        t.bytesInFlight = s.bytesInFlight) ∨
      ∃ segment, s.outstandingSegments.find? absAckno = some segment ∧
        t.outstandingSegments =
          s.outstandingSegments.filterKeys (absAckno < ·) ∧
        t.bytesInFlight =
          (s.outstandingSegments.filterKeys (· < absAckno)).entries.foldl
            (fun n e => n - e.2.lengthInSequenceSpace) s.bytesInFlight -
              segment.lengthInSequenceSpace

theorem applied_applyAck :
    Applied s absAckno windowSize (s.applyAck absAckno windowSize) := by
  have hrestart : ∀ r : TCPSender,
      ({ s with absAckno := absAckno, wdnSz := windowSize.toNat } :
        TCPSender).removeAcknowledged = r →
      ∃ largest timeout count elapsed, s.applyAck absAckno windowSize =
        { r.openWindow with
          maxAbsSeqno := largest
          rto := timeout
          consecutiveRetransmissions := count
          elapsedTime := elapsed
          timerOn := r.timerOn && !r.outstandingSegments.isEmpty } := by
    rintro r rfl
    exact restartTimer_frame _
  cases hfind : s.outstandingSegments.find? absAckno with
  | none =>
      obtain ⟨_, _, _, _, heq⟩ := hrestart
        { s with absAckno := absAckno, wdnSz := windowSize.toNat }
        (by simp [removeAcknowledged, hfind])
      rw [heq]
      exact
        { sameSent := ⟨rfl, rfl, rfl, rfl, rfl, rfl, rfl⟩
          segmentsOut := rfl
          absAckno_eq := rfl
          window := rfl
          timerOn := rfl
          removed := Or.inl ⟨hfind, rfl, rfl⟩ }
  | some segment =>
      obtain ⟨_, _, _, _, heq⟩ := hrestart _
        (removeAcknowledged_of_some hfind)
      rw [heq]
      exact
        { sameSent := ⟨rfl, rfl, rfl, rfl, rfl, rfl, rfl⟩
          segmentsOut := rfl
          absAckno_eq := rfl
          window := rfl
          timerOn := rfl
          removed := Or.inr ⟨segment, hfind, rfl, rfl⟩ }

end Ack

section AckReceived

variable {s : TCPSender} {ackno : WrappingInt32} {windowSize : UInt16}

/-- The sum with the window does not wrap around when the acknowledgment is
applied. -/
theorem add64_eq_of_applied
    (hsent : s.absoluteAckno ackno ≤ s.nextSeqnoAbsolute)
    (hroom : s.nextSeqnoAbsolute ≤
      add64 (s.absoluteAckno ackno) windowSize.toNat) :
    add64 (s.absoluteAckno ackno) windowSize.toNat =
      s.absoluteAckno ackno + windowSize.toNat := by
  have hlt : s.absoluteAckno ackno < 2 ^ 64 := unwrap_lt _ _ _
  have hwin := windowSize.toNat_lt
  unfold add64 at hroom ⊢
  omega

/-- An acknowledgment that has been applied opens the window up to its
end. -/
theorem applied_window
    (hsent : s.absoluteAckno ackno ≤ s.nextSeqnoAbsolute)
    (hroom : s.nextSeqnoAbsolute ≤
      add64 (s.absoluteAckno ackno) windowSize.toNat) :
    (s.applyAck (s.absoluteAckno ackno) windowSize).recvWdnSz +
        s.nextSeqnoAbsolute =
      s.absoluteAckno ackno + max windowSize.toNat 1 := by
  have hsum := add64_eq_of_applied hsent hroom
  have hlt := add64_lt (s.absoluteAckno ackno) windowSize.toNat
  have hwin := windowSize.toNat_lt
  rw [(applied_applyAck s _ _).window]
  rw [hsum] at hroom hlt ⊢
  by_cases hzero : windowSize.toNat = 0
  · rw [if_pos hzero]
    omega
  · rw [if_neg hzero, sub64_eq hlt hroom, Nat.mod_eq_of_lt (by omega)]
    omega

/-- What an acknowledgment does. -/
theorem ackReceived_cases
    (s : TCPSender) (ackno : WrappingInt32) (windowSize : UInt16) :
    (s.nextSeqnoAbsolute < s.absoluteAckno ackno ∧
        s.ackReceived ackno windowSize = s) ∨
      (s.absoluteAckno ackno ≤ s.nextSeqnoAbsolute ∧
        add64 (s.absoluteAckno ackno) windowSize.toNat <
          s.nextSeqnoAbsolute ∧
        s.ackReceived ackno windowSize = s.closeWindow) ∨
      (s.absoluteAckno ackno ≤ s.nextSeqnoAbsolute ∧
        s.nextSeqnoAbsolute ≤
          add64 (s.absoluteAckno ackno) windowSize.toNat ∧
        s.ackReceived ackno windowSize =
          (s.applyAck (s.absoluteAckno ackno) windowSize).fillWindow) := by
  simp only [ackReceived]
  by_cases hbeyond : s.absoluteAckno ackno > s.nextSeqnoAbsolute
  · rw [if_pos hbeyond]
    exact Or.inl ⟨hbeyond, rfl⟩
  · have hsent := not_lt.mp hbeyond
    rw [if_neg hbeyond]
    by_cases hclosed : add64 (s.absoluteAckno ackno) windowSize.toNat <
        s.nextSeqnoAbsolute
    · rw [if_pos hclosed]
      exact Or.inr (Or.inl ⟨hsent, hclosed, rfl⟩)
    · rw [if_neg hclosed]
      exact Or.inr (Or.inr ⟨hsent, not_lt.mp hclosed, rfl⟩)

/-- What holds before an acknowledgment, with the window closed, and after the
acknowledgment has been applied and the window filled, holds after it. -/
theorem ackReceived_rule
    {P : TCPSender → Prop} (h : P s) (hclose : P s.closeWindow)
    (happly : s.absoluteAckno ackno ≤ s.nextSeqnoAbsolute →
      P (s.applyAck (s.absoluteAckno ackno) windowSize).fillWindow) :
    P (s.ackReceived ackno windowSize) := by
  rcases ackReceived_cases s ackno windowSize with
    ⟨-, heq⟩ | ⟨-, -, heq⟩ | ⟨hsent, -, heq⟩
  · rw [heq]
    exact h
  · rw [heq]
    exact hclose
  · rw [heq]
    exact happly hsent

/-- An acknowledgment changes what is outstanding and the window, and then
lets segments out. -/
theorem ackReceived_emits
    (s : TCPSender) (ackno : WrappingInt32) (windowSize : UInt16) :
    ∃ m, SameSent s m ∧ Emits m (s.ackReceived ackno windowSize) := by
  apply ackReceived_rule (P := fun t => ∃ m, SameSent s m ∧ Emits m t)
  · exact ⟨s, ⟨rfl, rfl, rfl, rfl, rfl, rfl, rfl⟩, .refl⟩
  · exact ⟨s.closeWindow, sameSent_closeWindow s, .refl⟩
  · intro _
    exact ⟨_, (applied_applyAck s _ windowSize).sameSent,
      fillWindow_emits _⟩

end AckReceived

/-! ## The clock -/

/-- Time changes the timer and at most queues the first outstanding segment
again. -/
structure Ticked (s t : TCPSender) : Prop where
  sameSent : SameSent s t
  outstanding : t.outstandingSegments = s.outstandingSegments
  inFlight : t.bytesInFlight = s.bytesInFlight
  window : t.recvWdnSz = s.recvWdnSz
  timerOn : t.timerOn = s.timerOn
  segmentsOut : t.segmentsOut = s.segmentsOut ∨
    ∃ e, s.outstandingSegments.entries.head? = some e ∧
      t.segmentsOut = s.segmentsOut ++ [e.2]

theorem advanceTimer_frame (s : TCPSender) (ms : ℕ) :
    ∃ timeout elapsed, s.advanceTimer ms =
      { s with rto := timeout, elapsedTime := elapsed } := by
  unfold advanceTimer
  split
  · exact ⟨_, _, rfl⟩
  · exact ⟨_, _, rfl⟩

theorem backOff_frame (s : TCPSender) :
    ∃ timeout count, s.backOff =
      { s with rto := timeout, consecutiveRetransmissions := count } := by
  unfold backOff
  split
  · exact ⟨_, _, rfl⟩
  · exact ⟨_, _, rfl⟩

theorem retransmit_frame (s : TCPSender) :
    ∃ out, s.retransmit = { s with segmentsOut := out } ∧
      (out = s.segmentsOut ∨
        ∃ e, s.outstandingSegments.entries.head? = some e ∧
          out = s.segmentsOut ++ [e.2]) := by
  unfold retransmit
  cases hhead : s.outstandingSegments.entries.head? with
  | none => exact ⟨_, rfl, Or.inl rfl⟩
  | some e => exact ⟨_, rfl, Or.inr ⟨e, rfl, rfl⟩⟩

theorem ticked_tick (s : TCPSender) (ms : ℕ) : Ticked s (s.tick ms) := by
  have hsame : ∀ t : TCPSender, (∃ timeout elapsed, t =
      { s with rto := timeout, elapsedTime := elapsed }) → Ticked s t := by
    rintro t ⟨timeout, elapsed, rfl⟩
    exact ⟨⟨rfl, rfl, rfl, rfl, rfl, rfl, rfl⟩, rfl, rfl, rfl, rfl,
      Or.inl rfl⟩
  have hexpired : ∀ r : TCPSender, (∃ timeout elapsed, r =
      { s with rto := timeout, elapsedTime := elapsed }) →
      Ticked s { r.retransmit.backOff with elapsedTime := 0 } := by
    rintro r ⟨timeout, elapsed, rfl⟩
    obtain ⟨out, hretransmit, hout⟩ := retransmit_frame
      { s with rto := timeout, elapsedTime := elapsed }
    rw [hretransmit]
    obtain ⟨timeout', count, hback⟩ := backOff_frame
      { s with segmentsOut := out, rto := timeout, elapsedTime := elapsed }
    rw [hback]
    exact ⟨⟨rfl, rfl, rfl, rfl, rfl, rfl, rfl⟩, rfl, rfl, rfl, rfl, hout⟩
  have hadvance := advanceTimer_frame s ms
  unfold tick
  split
  · simp only
    split
    · exact hexpired _ hadvance
    · exact hsame _ hadvance
  · exact hsame s ⟨_, _, rfl⟩

/-! ## The segments in flight -/

/-- The created segments are those acknowledged, up to the sequence number
`una`, and those still outstanding. -/
structure InFlight (s : TCPSender) (una : ℕ)
    (acked rest : List (ℕ × TCPSegment)) : Prop where
  created_eq : s.created = acked ++ rest
  acked_contiguous :
    Contiguous TCPSegment.lengthInSequenceSpace 0 acked una
  rest_contiguous :
    Contiguous TCPSegment.lengthInSequenceSpace una rest s.nextSeqnoAbsolute
  positive : ∀ e ∈ rest, 0 < e.2.lengthInSequenceSpace
  outstanding_eq : s.outstandingSegments.entries =
    stops TCPSegment.lengthInSequenceSpace rest
  inFlight_eq : s.bytesInFlight + una = s.nextSeqnoAbsolute
  timerOn : rest ≠ [] → s.timerOn = true

/-- The created segments are partly acknowledged and partly in flight. -/
def Tracked (s : TCPSender) : Prop :=
  ∃ una acked rest, InFlight s una acked rest

section InFlight

variable {s t : TCPSender} {una : ℕ} {acked rest : List (ℕ × TCPSegment)}

theorem InFlight.contiguous (h : InFlight s una acked rest) :
    Contiguous TCPSegment.lengthInSequenceSpace 0 s.created
      s.nextSeqnoAbsolute := by
  rw [h.created_eq]
  exact contiguous_append.mpr
    ⟨una, h.acked_contiguous, h.rest_contiguous⟩

theorem InFlight.isEmpty_iff (h : InFlight s una acked rest) :
    s.outstandingSegments.isEmpty = true ↔ rest = [] := by
  rw [OrderedMap.isEmpty, List.isEmpty_iff, h.outstanding_eq, stops,
    List.map_eq_nil_iff]

/-- Nothing is in flight exactly when everything is acknowledged. -/
theorem InFlight.inFlight_eq_zero_iff (h : InFlight s una acked rest) :
    s.bytesInFlight = 0 ↔ rest = [] := by
  have hsum := h.inFlight_eq
  rw [h.rest_contiguous.eq_nil_iff h.positive]
  omega

theorem Tracked.isEmpty_iff (h : Tracked s) :
    s.outstandingSegments.isEmpty = true ↔ s.bytesInFlight = 0 := by
  obtain ⟨una, acked, rest, hin⟩ := h
  rw [hin.isEmpty_iff, hin.inFlight_eq_zero_iff]

/-- A new segment is in flight. -/
theorem InFlight.emission
    {segment : TCPSegment} (h : InFlight s una acked rest)
    (he : Emission s segment t) :
    InFlight t una acked (rest ++ [(s.nextSeqnoAbsolute, segment)]) := by
  have hkeys : ∀ e ∈ s.outstandingSegments.entries,
      e.1 < t.nextSeqnoAbsolute := by
    intro e hmem
    rw [h.outstanding_eq] at hmem
    have hle := h.rest_contiguous.stop_le hmem
    have hpos := he.positive
    rw [he.next]
    omega
  exact
    { created_eq := by rw [he.created, h.created_eq, List.append_assoc]
      acked_contiguous := h.acked_contiguous
      rest_contiguous := by
        rw [he.next]
        exact h.rest_contiguous.concat segment
      positive := List.forall_mem_append.mpr
        ⟨h.positive, List.forall_mem_singleton.mpr he.positive⟩
      outstanding_eq := by
        rw [he.outstanding, OrderedMap.insert_entries_of_lt hkeys,
          h.outstanding_eq, stops_append, he.next]
        rfl
      inFlight_eq := by
        have hsum := h.inFlight_eq
        rw [he.inFlight, he.next]
        omega
      timerOn := fun _ => he.timerOn }

/-- New segments end behind everything that was sent before. -/
theorem InFlight.emits (h : InFlight s una acked rest) (he : Emits s t) :
    ∃ more, InFlight t una acked (rest ++ more) ∧
      ∀ e ∈ stops TCPSegment.lengthInSequenceSpace more,
        s.nextSeqnoAbsolute < e.1 := by
  have hmore : ∃ more, InFlight t una acked (rest ++ more) ∧
      s.nextSeqnoAbsolute ≤ t.nextSeqnoAbsolute ∧
      ∀ e ∈ stops TCPSegment.lengthInSequenceSpace more,
        s.nextSeqnoAbsolute < e.1 := by
    refine he.preserves (P := fun r => ∃ more,
      InFlight r una acked (rest ++ more) ∧
        s.nextSeqnoAbsolute ≤ r.nextSeqnoAbsolute ∧
        ∀ e ∈ stops TCPSegment.lengthInSequenceSpace more,
          s.nextSeqnoAbsolute < e.1) ?_ ?_
    · rintro r segment r' he ⟨more, hin, hle, hstops⟩
      have hpos := he.positive
      refine ⟨more ++ [(r.nextSeqnoAbsolute, segment)], ?_, ?_, ?_⟩
      · rw [← List.append_assoc]
        exact hin.emission he
      · rw [he.next]
        exact hle.trans (Nat.le_add_right _ _)
      · rw [stops_append]
        refine List.forall_mem_append.mpr
          ⟨hstops, List.forall_mem_singleton.mpr ?_⟩
        exact lt_of_le_of_lt hle (Nat.lt_add_of_pos_right hpos)
    · refine ⟨[], ?_, le_rfl, fun _ hmem => absurd hmem List.not_mem_nil⟩
      rw [List.append_nil]
      exact h
  obtain ⟨more, hin, -, hstops⟩ := hmore
  exact ⟨more, hin, hstops⟩

theorem Tracked.emission
    {segment : TCPSegment} (h : Tracked s) (he : Emission s segment t) :
    Tracked t := by
  obtain ⟨una, acked, rest, hin⟩ := h
  exact ⟨una, acked, _, hin.emission he⟩

/-- Only the fields that `InFlight` mentions matter. -/
theorem InFlight.congr
    (h : InFlight s una acked rest) (hcreated : t.created = s.created)
    (hnext : t.nextSeqnoAbsolute = s.nextSeqnoAbsolute)
    (hout : t.outstandingSegments = s.outstandingSegments)
    (hflight : t.bytesInFlight = s.bytesInFlight)
    (htimer : rest ≠ [] → t.timerOn = true) :
    InFlight t una acked rest where
  created_eq := by rw [hcreated, h.created_eq]
  acked_contiguous := h.acked_contiguous
  rest_contiguous := by
    rw [hnext]
    exact h.rest_contiguous
  positive := h.positive
  outstanding_eq := by rw [hout, h.outstanding_eq]
  inFlight_eq := by rw [hflight, hnext, h.inFlight_eq]
  timerOn := htimer

/-- Applying an acknowledgment moves the boundary over whole segments. -/
theorem InFlight.applied
    {absAckno : ℕ} {windowSize : UInt16} (h : InFlight s una acked rest)
    (ha : Applied s absAckno windowSize t) :
    ∃ una' front back, rest = front ++ back ∧
      InFlight t una' (acked ++ front) back ∧
      (una' = absAckno ∨ front = []) := by
  rcases ha.removed with ⟨-, hout, hflight⟩ | ⟨segment, hfind, hout, hflight⟩
  · refine ⟨una, [], rest, rfl, ?_, Or.inr rfl⟩
    rw [List.append_nil]
    refine h.congr ha.sameSent.created ha.sameSent.next hout hflight
      fun hne => ?_
    have hsome : s.outstandingSegments.isEmpty = false := by
      rw [← Bool.not_eq_true, h.isEmpty_iff]
      exact hne
    rw [ha.timerOn, hout, hsome, h.timerOn hne]
    rfl
  · have hmem := OrderedMap.mem_of_find? hfind
    rw [h.outstanding_eq] at hmem
    obtain ⟨front, m, back, rfl, hstop, hfront, hback, hbefore, hafter⟩ :=
      h.rest_contiguous.split_at_stop h.positive hmem
    have hsum := hfront.sum_eq
    have hle := hback.le
    have hold := h.inFlight_eq
    have hsplit : front ++ (m, segment) :: back =
        (front ++ [(m, segment)]) ++ back := by simp
    refine ⟨absAckno, front ++ [(m, segment)], back, hsplit, ?_,
      Or.inl rfl⟩
    exact
      { created_eq := by
          rw [ha.sameSent.created, h.created_eq]
          simp
        acked_contiguous := by
          refine contiguous_append.mpr ⟨una, h.acked_contiguous, ?_⟩
          rw [← hstop]
          exact hfront.concat segment
        rest_contiguous := by
          rw [ha.sameSent.next]
          exact hback
        positive := by
          intro e he
          refine h.positive e ?_
          exact List.mem_append_right _ (List.mem_cons_of_mem _ he)
        outstanding_eq := by
          rw [hout, OrderedMap.filterKeys_entries, h.outstanding_eq, hafter]
        inFlight_eq := by
          rw [hflight, OrderedMap.filterKeys_entries, h.outstanding_eq,
            hbefore, foldl_sub_eq, sum_stops, ha.sameSent.next]
          omega
        timerOn := by
          intro hne
          have hsome : t.outstandingSegments.isEmpty = false := by
            rw [hout, OrderedMap.isEmpty, OrderedMap.filterKeys_entries,
              h.outstanding_eq, hafter, stops, List.isEmpty_map]
            exact List.isEmpty_eq_false_iff.mpr hne
          rw [ha.timerOn, hsome, h.timerOn (by simp)]
          rfl }

theorem Tracked.congr
    (h : Tracked s) (hcreated : t.created = s.created)
    (hnext : t.nextSeqnoAbsolute = s.nextSeqnoAbsolute)
    (hout : t.outstandingSegments = s.outstandingSegments)
    (hflight : t.bytesInFlight = s.bytesInFlight)
    (htimer : t.timerOn = s.timerOn) : Tracked t := by
  obtain ⟨una, acked, rest, hin⟩ := h
  refine ⟨una, acked, rest, hin.congr hcreated hnext hout hflight ?_⟩
  intro hne
  rw [htimer, hin.timerOn hne]

theorem Tracked.applied
    {absAckno : ℕ} {windowSize : UInt16} (h : Tracked s)
    (ha : Applied s absAckno windowSize t) : Tracked t := by
  obtain ⟨una, acked, rest, hin⟩ := h
  obtain ⟨una', front, back, -, hnew, -⟩ := hin.applied ha
  exact ⟨una', _, back, hnew⟩

theorem tracked_new
    (capacity : ℕ) (retxTimeout : UInt16) (fixedIsn : Option WrappingInt32)
    (randomIsn : UInt32) :
    Tracked (new capacity retxTimeout fixedIsn randomIsn) :=
  ⟨0, [], [],
    { created_eq := rfl
      acked_contiguous := rfl
      rest_contiguous := rfl
      positive := fun _ hmem => absurd hmem List.not_mem_nil
      outstanding_eq := rfl
      inFlight_eq := rfl
      timerOn := fun hne => absurd rfl hne }⟩

/-- A step acknowledges some of the segments in flight, from the front on, and
puts others behind them. -/
theorem InFlight.step (h : InFlight s una acked rest) (op : Op) :
    ∃ una' front back more, rest = front ++ back ∧
      InFlight (s.step op) una' (acked ++ front) (back ++ more) := by
  have hsame : ∀ t : TCPSender, InFlight t una acked rest →
      ∃ una' front back more, rest = front ++ back ∧
        InFlight t una' (acked ++ front) (back ++ more) := by
    intro t ht
    refine ⟨una, [], rest, [], rfl, ?_⟩
    rw [List.append_nil, List.append_nil]
    exact ht
  cases op with
  | write data => exact hsame _ (h.congr rfl rfl rfl rfl h.timerOn)
  | endInput => exact hsame _ (h.congr rfl rfl rfl rfl h.timerOn)
  | fillWindow =>
      obtain ⟨more, hmore, -⟩ := h.emits (fillWindow_emits s)
      refine ⟨una, [], rest, more, rfl, ?_⟩
      rw [List.append_nil]
      exact hmore
  | ackReceived ackno windowSize =>
      apply ackReceived_rule (P := fun t => ∃ una' front back more,
        rest = front ++ back ∧ InFlight t una' (acked ++ front) (back ++ more))
      · exact hsame s h
      · exact hsame _ (h.congr rfl rfl rfl rfl h.timerOn)
      · intro _
        obtain ⟨una', front, back, hsplit, happlied, -⟩ :=
          h.applied (applied_applyAck s _ windowSize)
        obtain ⟨more, hmore, -⟩ := happlied.emits (fillWindow_emits _)
        exact ⟨una', front, back, more, hsplit, hmore⟩
  | tick ms =>
      have hticked := ticked_tick s ms
      refine hsame _ (h.congr hticked.sameSent.created hticked.sameSent.next
        hticked.outstanding hticked.inFlight fun hne => ?_)
      exact hticked.timerOn.trans (h.timerOn hne)
  | sendEmptySegment => exact hsame _ (h.congr rfl rfl rfl rfl h.timerOn)

theorem Tracked.step (h : Tracked s) (op : Op) : Tracked (s.step op) := by
  obtain ⟨una, acked, rest, hin⟩ := h
  obtain ⟨una', front, back, more, -, hstep⟩ := hin.step op
  exact ⟨una', _, _, hstep⟩

theorem Tracked.fillWindow (h : Tracked s) : Tracked s.fillWindow :=
  h.step .fillWindow

theorem Tracked.tick (h : Tracked s) (ms : ℕ) : Tracked (s.tick ms) :=
  h.step (.tick ms)

end InFlight

/-! ## A step in two parts -/

/-- What the writer does to the outgoing stream. -/
def Op.onStream (op : Op) (bs : ByteStream) : ByteStream :=
  match op with
  | .write data => (bs.write data).2
  | .endInput => bs.endInput
  | .fillWindow => bs
  | .ackReceived _ _ => bs
  | .tick _ => bs
  | .sendEmptySegment => bs

theorem Op.onStream_error (op : Op) (bs : ByteStream) :
    (op.onStream bs).error = bs.error := by
  cases op with
  | write data => exact ByteStream.write_error bs data
  | endInput => rfl
  | fillWindow => rfl
  | ackReceived ackno windowSize => rfl
  | tick ms => rfl
  | sendEmptySegment => rfl

/-- The input of the stream ends only by the writer's word. -/
theorem Op.onStream_inputEnded (op : Op) (bs : ByteStream) :
    (op.onStream bs).inputEnded = true ↔
      bs.inputEnded = true ∨ op = .endInput := by
  cases op with
  | write data => simp [Op.onStream]
  | endInput => simp [Op.onStream, ByteStream.endInput]
  | fillWindow => simp [Op.onStream]
  | ackReceived ackno windowSize => simp [Op.onStream]
  | tick ms => simp [Op.onStream]
  | sendEmptySegment => simp [Op.onStream]

/-- Only a write adds to the stream. -/
theorem Op.onStream_written (op : Op) (bs : ByteStream) :
    (op.onStream bs).written = bs.written ∨
      ∃ data, op = .write data ∧
        (op.onStream bs).written =
          bs.written ++ data.take (bs.write data).1 := by
  cases op with
  | write data =>
      exact Or.inr ⟨data, rfl, ByteStream.write_written bs data⟩
  | endInput => exact Or.inl rfl
  | fillWindow => exact Or.inl rfl
  | ackReceived ackno windowSize => exact Or.inl rfl
  | tick ms => exact Or.inl rfl
  | sendEmptySegment => exact Or.inl rfl

/-- The part of a step that creates no segment. -/
structure Prepares (s : TCPSender) (op : Op) (m : TCPSender) : Prop where
  isn : m.isn = s.isn
  created : m.created = s.created
  next : m.nextSeqnoAbsolute = s.nextSeqnoAbsolute
  streamIn : m.streamIn = op.onStream s.streamIn
  finSent : m.finSent = s.finSent

theorem SameSent.prepares
    {s m : TCPSender} {op : Op} (h : SameSent s m)
    (hop : op.onStream s.streamIn = s.streamIn) : Prepares s op m :=
  ⟨h.isn, h.created, h.next, h.streamIn.trans hop.symm, h.finSent⟩

/-- The writer's part of a step comes first, and then segments are sent. -/
theorem step_emits (s : TCPSender) (op : Op) :
    ∃ m, Prepares s op m ∧ Emits m (s.step op) := by
  cases op with
  | write data =>
      exact ⟨s.step (.write data), ⟨rfl, rfl, rfl, rfl, rfl⟩, .refl⟩
  | endInput => exact ⟨s.step .endInput, ⟨rfl, rfl, rfl, rfl, rfl⟩, .refl⟩
  | fillWindow => exact ⟨s, ⟨rfl, rfl, rfl, rfl, rfl⟩, fillWindow_emits s⟩
  | ackReceived ackno windowSize =>
      obtain ⟨m, hsame, hemits⟩ := ackReceived_emits s ackno windowSize
      exact ⟨m, hsame.prepares rfl, hemits⟩
  | tick ms =>
      exact ⟨s.tick ms, (ticked_tick s ms).sameSent.prepares rfl, .refl⟩
  | sendEmptySegment =>
      exact ⟨s.sendEmptySegment,
        (sameSent_sendEmptySegment s).prepares rfl, .refl⟩

/-! ## The FIN -/

/-- The flag tells whether a segment with the FIN has been created. -/
def FinNoted (s : TCPSender) : Prop :=
  s.finSent = true ↔ ∃ e ∈ s.created, e.2.header.fin = true

theorem finNoted_new
    (capacity : ℕ) (retxTimeout : UInt16) (fixedIsn : Option WrappingInt32)
    (randomIsn : UInt32) :
    FinNoted (new capacity retxTimeout fixedIsn randomIsn) := by
  constructor
  · intro h
    exact absurd h Bool.false_ne_true
  · rintro ⟨e, hmem, -⟩
    exact absurd hmem List.not_mem_nil

section FinNoted

variable {s t : TCPSender}

theorem FinNoted.congr
    (h : FinNoted s) (hcreated : t.created = s.created)
    (hfin : t.finSent = s.finSent) : FinNoted t := by
  unfold FinNoted
  rw [hcreated, hfin]
  exact h

theorem FinNoted.emission
    {segment : TCPSegment} (h : FinNoted s) (he : Emission s segment t) :
    FinNoted t := by
  unfold FinNoted at h ⊢
  rw [he.created, he.finSent, Bool.or_eq_true, h]
  constructor
  · rintro (⟨e, hmem, hfin⟩ | hfin)
    · exact ⟨e, List.mem_append_left _ hmem, hfin⟩
    · exact ⟨_, List.mem_append_right _ (List.mem_singleton_self _), hfin⟩
  · rintro ⟨e, hmem, hfin⟩
    rcases List.mem_append.mp hmem with hmem | hmem
    · exact Or.inl ⟨e, hmem, hfin⟩
    · rw [List.mem_singleton.mp hmem] at hfin
      exact Or.inr hfin

theorem FinNoted.emits (h : FinNoted s) (he : Emits s t) : FinNoted t :=
  he.preserves (fun _ _ _ hemission hs => hs.emission hemission) h

theorem FinNoted.step (h : FinNoted s) (op : Op) : FinNoted (s.step op) := by
  obtain ⟨m, hm, hemits⟩ := step_emits s op
  exact (h.congr hm.created hm.finSent).emits hemits

end FinNoted

end TCPSender

end Sponge
