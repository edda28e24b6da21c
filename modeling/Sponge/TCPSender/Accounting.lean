import Sponge.TCPSender.FillWindow
import Sponge.TCPSender.InFlight

/-!
# The account of what is in flight

The number of bytes in flight is a counter of its own, which `ack_received`
decreases once for every segment that it removes.  It agrees with the
outstanding segments in every state, whatever the peer and the application do,
and these segments fill the sequence space up to the next sequence number.

An acknowledgment is meant to be cumulative: it acknowledges every segment that
ends at or before it.  The sender looks only for a segment that ends exactly at
the acknowledgment number, and only if the window reaches up to what has been
sent.  The second part says for which runs this makes no difference.
-/

namespace Sponge

namespace TCPSender

/-! ## The counter and the segments -/

/-- Every segment occupies sequence numbers and carries the first of them. -/
def Stamped (s : TCPSender) : Prop :=
  ∀ e ∈ s.created, e.2.header.seqno = wrap e.1 s.isn ∧
    0 < e.2.lengthInSequenceSpace

/-- The outstanding segments, each under the sequence number at which it ends,
fill what is in flight, and what `ack_received` subtracts from the counter is
not more than the counter. -/
structure Accounted (s : TCPSender) : Prop where
  positive : ∀ e ∈ s.outstandingSegments.entries,
    0 < e.2.lengthInSequenceSpace
  inFlight_le : s.bytesInFlight ≤ s.nextSeqnoAbsolute
  tiles : ∃ segments,
    s.outstandingSegments.entries =
        stops TCPSegment.lengthInSequenceSpace segments ∧
      (∀ e ∈ segments, e.2.header.seqno = wrap e.1 s.isn) ∧
      Contiguous TCPSegment.lengthInSequenceSpace
        (s.nextSeqnoAbsolute - s.bytesInFlight) segments s.nextSeqnoAbsolute
  sum_eq : s.bytesInFlight = (s.outstandingSegments.entries.map fun e =>
    e.2.lengthInSequenceSpace).sum
  subtract_le : ∀ absAckno segment,
    s.outstandingSegments.find? absAckno = some segment →
      ((s.outstandingSegments.filterKeys (· < absAckno)).entries.map fun e =>
          e.2.lengthInSequenceSpace).sum + segment.lengthInSequenceSpace ≤
        s.bytesInFlight

theorem stamped_new
    (capacity : ℕ) (retxTimeout : UInt16) (fixedIsn : Option WrappingInt32)
    (randomIsn : UInt32) :
    Stamped (new capacity retxTimeout fixedIsn randomIsn) :=
  fun _ hmem => absurd hmem List.not_mem_nil

section Accounted

variable {s t : TCPSender} {una : ℕ} {acked rest : List (ℕ × TCPSegment)}

theorem Stamped.emission
    {segment : TCPSegment} (h : Stamped s) (he : Emission s segment t) :
    Stamped t := by
  unfold Stamped
  rw [he.created, he.isn]
  exact List.forall_mem_append.mpr
    ⟨h, List.forall_mem_singleton.mpr ⟨he.seqno, he.positive⟩⟩

theorem Stamped.step (h : Stamped s) (op : Op) : Stamped (s.step op) := by
  obtain ⟨m, hm, hemits⟩ := step_emits s op
  refine hemits.preserves (fun _ _ _ he hs => hs.emission he) ?_
  unfold Stamped
  rw [hm.created, hm.isn]
  exact h

theorem InFlight.sum_eq (h : InFlight s una acked rest) :
    s.bytesInFlight = (s.outstandingSegments.entries.map fun e =>
      e.2.lengthInSequenceSpace).sum := by
  have hsum := h.rest_contiguous.sum_eq
  have hflight := h.inFlight_eq
  rw [h.outstanding_eq, sum_stops]
  omega

/-- The segments up to one that ends at the acknowledgment number are part of
what is in flight. -/
theorem InFlight.subtract_le
    {absAckno : ℕ} {segment : TCPSegment} (h : InFlight s una acked rest)
    (hfind : s.outstandingSegments.find? absAckno = some segment) :
    ((s.outstandingSegments.filterKeys (· < absAckno)).entries.map fun e =>
        e.2.lengthInSequenceSpace).sum + segment.lengthInSequenceSpace ≤
      s.bytesInFlight := by
  have hmem := OrderedMap.mem_of_find? hfind
  rw [h.outstanding_eq] at hmem
  obtain ⟨front, m, back, -, hstop, hfront, hback, hbefore, -⟩ :=
    h.rest_contiguous.split_at_stop h.positive hmem
  have hsum := hfront.sum_eq
  have hle := hback.le
  have hflight := h.inFlight_eq
  rw [OrderedMap.filterKeys_entries, h.outstanding_eq, hbefore, sum_stops]
  omega

theorem Tracked.accounted (h : Tracked s) (hstamped : Stamped s) :
    Accounted s := by
  obtain ⟨una, acked, rest, hin⟩ := h
  have hflight := hin.inFlight_eq
  have huna : s.nextSeqnoAbsolute - s.bytesInFlight = una := by omega
  have hmem : ∀ e ∈ rest, e ∈ s.created := by
    intro e he
    rw [hin.created_eq]
    exact List.mem_append_right _ he
  refine
    { positive := ?_
      inFlight_le := by omega
      tiles := ⟨rest, hin.outstanding_eq,
        fun e he => (hstamped e (hmem e he)).1, ?_⟩
      sum_eq := hin.sum_eq
      subtract_le := fun _ _ hfind => hin.subtract_le hfind }
  · rw [hin.outstanding_eq]
    intro e he
    obtain ⟨d, hd, rfl⟩ := List.mem_map.mp he
    exact hin.positive d hd
  · rw [huna]
    exact hin.rest_contiguous

end Accounted

/-- In every run the counter of the bytes in flight is the sum of the lengths
of the outstanding segments, which lie end to end up to the next sequence
number. -/
theorem run_accounted
    (capacity : ℕ) (retxTimeout : UInt16) (fixedIsn : Option WrappingInt32)
    (randomIsn : UInt32) (ops : List Op) :
    Accounted (run step (new capacity retxTimeout fixedIsn randomIsn) ops) := by
  have htracked : Tracked
      (run step (new capacity retxTimeout fixedIsn randomIsn) ops) :=
    run_preserves (fun _ op hs => hs.step op)
      (tracked_new capacity retxTimeout fixedIsn randomIsn) ops
  have hstamped : Stamped
      (run step (new capacity retxTimeout fixedIsn randomIsn) ops) :=
    run_preserves (fun _ op hs => hs.step op)
      (stamped_new capacity retxTimeout fixedIsn randomIsn) ops
  exact htracked.accounted hstamped

/-! ## Cumulative acknowledgment -/

/-- The greatest acknowledgment number received after an operation, where `m`
is the greatest one before it.  One of an unsent sequence number does not
count. -/
def largestAckno (s : TCPSender) (m : ℕ) : Op → ℕ
  | .ackReceived ackno _ =>
      if relativeSeqno ackno s.isn ≤ s.nextSeqnoAbsolute then
        max m (relativeSeqno ackno s.isn)
      else m
  | .write _ => m
  | .endInput => m
  | .fillWindow => m
  | .tick _ => m
  | .sendEmptySegment => m

/-- A sender, and the greatest acknowledgment number that it has received. -/
structure Acknowledged where
  sender : TCPSender
  largest : ℕ

def Acknowledged.step (x : Acknowledged) (op : Op) : Acknowledged where
  sender := x.sender.step op
  largest := x.sender.largestAckno x.largest op

/-- Exactly the segments that end behind the greatest acknowledgment number
are in flight. -/
structure Cumulative (x : Acknowledged) : Prop where
  outstanding_eq : x.sender.outstandingSegments.entries =
    (stops TCPSegment.lengthInSequenceSpace x.sender.created).filter
      fun e => x.largest < e.1
  inFlight_eq : x.sender.bytesInFlight =
    (x.sender.outstandingSegments.entries.map fun e =>
      e.2.lengthInSequenceSpace).sum

/-- An acknowledgment that covers an outstanding segment ends at one, and it
comes with a window that reaches up to what has been sent. -/
def Retires (s : TCPSender) : Op → Prop
  | .ackReceived ackno windowSize =>
      relativeSeqno ackno s.isn ≤ s.nextSeqnoAbsolute →
        (∃ e ∈ s.outstandingSegments.entries,
          e.1 ≤ relativeSeqno ackno s.isn) →
        s.nextSeqnoAbsolute ≤
            relativeSeqno ackno s.isn + windowSize.toNat ∧
          ∃ e ∈ s.outstandingSegments.entries,
            e.1 = relativeSeqno ackno s.isn
  | .write _ => True
  | .endInput => True
  | .fillWindow => True
  | .tick _ => True
  | .sendEmptySegment => True

instance retiresDecidable (s : TCPSender) : ∀ op, Decidable (Retires s op)
  | .ackReceived _ _ => inferInstanceAs (Decidable (_ → _ → _ ∧ _))
  | .write _ => isTrue trivial
  | .endInput => isTrue trivial
  | .fillWindow => isTrue trivial
  | .tick _ => isTrue trivial
  | .sendEmptySegment => isTrue trivial

section Cumulative

variable {s t : TCPSender} {una m : ℕ} {acked rest : List (ℕ × TCPSegment)}

/-- In terms of the boundary of what is in flight. -/
theorem InFlight.cumulative_iff (h : InFlight s una acked rest) :
    Cumulative ⟨s, m⟩ ↔
      una ≤ m ∧ ∀ e ∈ s.outstandingSegments.entries, m < e.1 := by
  have hsplit : (stops TCPSegment.lengthInSequenceSpace s.created).filter
      (fun e => m < e.1) =
      (stops TCPSegment.lengthInSequenceSpace acked).filter
          (fun e => m < e.1) ++
        s.outstandingSegments.entries.filter (fun e => m < e.1) := by
    rw [h.created_eq, stops_append, List.filter_append, h.outstanding_eq]
  rw [← h.acked_contiguous.filter_stops_eq_nil_iff (Nat.zero_le m)]
  constructor
  · intro hcumulative
    have heq := hcumulative.outstanding_eq
    simp only [hsplit] at heq
    have hbehind : ∀ e ∈ s.outstandingSegments.entries, m < e.1 := by
      intro e he
      rw [heq, ← List.filter_append] at he
      exact of_decide_eq_true (List.mem_filter.mp he).2
    refine ⟨?_, hbehind⟩
    rw [List.filter_eq_self.mpr fun e he => decide_eq_true (hbehind e he)]
      at heq
    exact List.append_left_eq_self.mp heq.symm
  · rintro ⟨hnil, hbehind⟩
    refine ⟨?_, h.sum_eq⟩
    simp only [hsplit]
    rw [hnil, List.nil_append,
      List.filter_eq_self.mpr fun e he => decide_eq_true (hbehind e he)]

/-- Only the segments matter. -/
theorem Cumulative.congr
    (h : Cumulative ⟨s, m⟩) (hcreated : t.created = s.created)
    (hout : t.outstandingSegments = s.outstandingSegments)
    (hflight : t.bytesInFlight = s.bytesInFlight) : Cumulative ⟨t, m⟩ where
  outstanding_eq := by
    simp only [hcreated, hout]
    exact h.outstanding_eq
  inFlight_eq := by
    simp only [hout, hflight]
    exact h.inFlight_eq

/-- New segments do not matter. -/
theorem InFlight.cumulative_emits_iff
    (h : InFlight s una acked rest) (hm : m ≤ s.nextSeqnoAbsolute)
    (he : Emits s t) : Cumulative ⟨t, m⟩ ↔ Cumulative ⟨s, m⟩ := by
  obtain ⟨more, hmore, hbehind⟩ := h.emits he
  rw [h.cumulative_iff, hmore.cumulative_iff, h.outstanding_eq,
    hmore.outstanding_eq, stops_append, List.forall_mem_append]
  constructor
  · rintro ⟨huna, hrest, -⟩
    exact ⟨huna, hrest⟩
  · rintro ⟨huna, hrest⟩
    exact ⟨huna, hrest, fun e he => lt_of_le_of_lt hm (hbehind e he)⟩

variable {a : ℕ} {windowSize : UInt16}

/-- If nothing is removed, then nothing may end at or before the
acknowledgment number. -/
theorem InFlight.cumulative_max_iff
    (h : InFlight s una acked rest) (hcumulative : Cumulative ⟨s, m⟩) :
    Cumulative ⟨s, max m a⟩ ↔
      ¬ ∃ e ∈ s.outstandingSegments.entries, e.1 ≤ a := by
  obtain ⟨huna, hbehind⟩ := h.cumulative_iff.mp hcumulative
  rw [h.cumulative_iff]
  constructor
  · rintro ⟨-, hmax⟩ ⟨e, he, hle⟩
    exact absurd (hle.trans (le_max_right m a)) (not_le.mpr (hmax e he))
  · intro hnone
    refine ⟨huna.trans (le_max_left m a), fun e he => ?_⟩
    refine max_lt (hbehind e he) (not_le.mp fun hle => ?_)
    exact hnone ⟨e, he, hle⟩

/-- A removal that ends at the acknowledgment number removes what it should. -/
theorem InFlight.cumulative_removed
    (h : InFlight s una acked rest) (hcumulative : Cumulative ⟨s, m⟩)
    (happlied : Applied s a windowSize t)
    (hout : t.outstandingSegments =
      s.outstandingSegments.filterKeys (a < ·)) :
    Cumulative ⟨t, max m a⟩ := by
  obtain ⟨huna, hbehind⟩ := h.cumulative_iff.mp hcumulative
  obtain ⟨una', front, back, hsplit, hin, hboundary⟩ := h.applied happlied
  rw [hin.cumulative_iff]
  refine ⟨?_, ?_⟩
  · rcases hboundary with rfl | rfl
    · exact le_max_right m una'
    · have hbefore := h.acked_contiguous.sum_eq
      have hafter := hin.acked_contiguous.sum_eq
      rw [List.append_nil] at hafter
      exact (hafter.symm.trans hbefore).le.trans
        (huna.trans (le_max_left m a))
  · intro e he
    rw [hout, OrderedMap.filterKeys_entries] at he
    obtain ⟨hmem, hlt⟩ := List.mem_filter.mp he
    exact max_lt (hbehind e hmem) (of_decide_eq_true hlt)

/-- An acknowledgment that the sender looks up leaves exactly what it should in
flight if and only if it ends at a segment or covers none. -/
theorem InFlight.cumulative_applyAck_iff
    (h : InFlight s una acked rest) (hcumulative : Cumulative ⟨s, m⟩)
    (hm : m ≤ s.nextSeqnoAbsolute) (hsent : a ≤ s.nextSeqnoAbsolute) :
    Cumulative ⟨(s.applyAck a windowSize).fillWindow, max m a⟩ ↔
      ((∃ e ∈ s.outstandingSegments.entries, e.1 ≤ a) →
        ∃ e ∈ s.outstandingSegments.entries, e.1 = a) := by
  have happlied := applied_applyAck s a windowSize
  obtain ⟨una', front, back, -, hafter, -⟩ := h.applied happlied
  have hmax : max m a ≤ (s.applyAck a windowSize).nextSeqnoAbsolute := by
    rw [happlied.sameSent.next]
    exact max_le hm hsent
  rw [hafter.cumulative_emits_iff hmax (fillWindow_emits _)]
  rcases happlied.removed with ⟨hfind, hout, hflight⟩ |
    ⟨segment, hfind, hout, -⟩
  · have hkept : Cumulative ⟨s.applyAck a windowSize, m⟩ :=
      hcumulative.congr happlied.sameSent.created hout hflight
    have hnot : ¬ ∃ e ∈ s.outstandingSegments.entries, e.1 = a := by
      rintro ⟨e, hmem, rfl⟩
      rw [OrderedMap.find?_of_mem hmem] at hfind
      cases hfind
    rw [hafter.cumulative_max_iff hkept, hout]
    exact ⟨fun hnone hsome => absurd hsome hnone,
      fun hends hsome => hnot (hends hsome)⟩
  · have hmem := OrderedMap.mem_of_find? hfind
    exact ⟨fun _ _ => ⟨_, hmem, rfl⟩,
      fun _ => h.cumulative_removed hcumulative happlied hout⟩

/-- An acknowledgment leaves exactly what it should in flight if and only if
it meets the condition. -/
theorem Tracked.cumulative_ackReceived_iff
    {ackno : WrappingInt32} (h : Tracked s) (hcumulative : Cumulative ⟨s, m⟩)
    (hm : m ≤ s.nextSeqnoAbsolute) (hbound : s.nextSeqnoAbsolute < 2 ^ 31)
    (hreads : s.absoluteAckno ackno = relativeSeqno ackno s.isn) :
    Cumulative ⟨s.ackReceived ackno windowSize,
        s.largestAckno m (.ackReceived ackno windowSize)⟩ ↔
      Retires s (.ackReceived ackno windowSize) := by
  obtain ⟨una, acked, rest, hin⟩ := h
  have hcases := ackReceived_cases s ackno windowSize
  rw [hreads] at hcases
  simp only [largestAckno, Retires]
  generalize relativeSeqno ackno s.isn = a at hcases ⊢
  -- the sum that the sender compares does not overflow
  have hsum : a ≤ s.nextSeqnoAbsolute →
      add64 a windowSize.toNat = a + windowSize.toNat := by
    intro hsent
    have hwindow := windowSize.toNat_lt
    exact add64_eq (by omega)
  rcases hcases with ⟨hbeyond, heq⟩ | ⟨hsent, hless, heq⟩ |
    ⟨hsent, hroom, heq⟩
  · rw [heq, if_neg (not_le.mpr hbeyond)]
    exact ⟨fun _ hsent => absurd hsent (not_le.mpr hbeyond),
      fun _ => hcumulative⟩
  · have hclosed : InFlight s.closeWindow una acked rest :=
      hin.congr rfl rfl rfl rfl hin.timerOn
    rw [hsum hsent] at hless
    rw [heq, if_pos hsent,
      hclosed.cumulative_max_iff (hcumulative.congr rfl rfl rfl)]
    exact ⟨fun hnone _ hsome => absurd hsome hnone, fun hretires hsome =>
      not_le.mpr hless (hretires hsent hsome).1⟩
  · rw [hsum hsent] at hroom
    rw [heq, if_pos hsent,
      hin.cumulative_applyAck_iff hcumulative hm hsent]
    exact ⟨fun hends _ hsome => ⟨hroom, hends hsome⟩,
      fun hretires hsome => (hretires hsent hsome).2⟩

end Cumulative

/-! ## Runs -/

theorem fillWindow_absAckno (s : TCPSender) :
    s.fillWindow.absAckno = s.absAckno := by
  refine fillWindow_rule (P := fun r => r.absAckno = s.absAckno) ?_ ?_ rfl
  · rintro r t ⟨_, _, _, _, _, _, rfl⟩ hr
    exact hr
  · intro r segment _ hr
    rw [sendSegment_eq]
    exact hr

theorem tick_absAckno (s : TCPSender) (ms : ℕ) :
    (s.tick ms).absAckno = s.absAckno := by
  have hadvance : (s.advanceTimer ms).absAckno = s.absAckno := by
    obtain ⟨timeout, elapsed, hframe⟩ := advanceTimer_frame s ms
    rw [hframe]
  have hretransmit : ∀ r : TCPSender, r.retransmit.absAckno = r.absAckno := by
    intro r
    obtain ⟨out, hframe, -⟩ := retransmit_frame r
    rw [hframe]
  have hback : ∀ r : TCPSender, r.backOff.absAckno = r.absAckno := by
    intro r
    obtain ⟨timeout, count, hframe⟩ := backOff_frame r
    rw [hframe]
  unfold tick
  split
  · simp only
    split
    · exact (hback _).trans ((hretransmit _).trans hadvance)
    · exact hadvance
  · rfl

/-- What holds throughout a run, whether or not the acknowledgments meet the
condition. -/
structure Acknowledged.Valid (x : Acknowledged) : Prop where
  tracked : Tracked x.sender
  absAckno_le : x.sender.absAckno ≤ x.sender.nextSeqnoAbsolute
  largest_le : x.largest ≤ x.sender.nextSeqnoAbsolute

section Runs

variable {x : Acknowledged}

theorem step_next_le (s : TCPSender) (op : Op) :
    s.nextSeqnoAbsolute ≤ (s.step op).nextSeqnoAbsolute := by
  obtain ⟨m, hm, hemits⟩ := step_emits s op
  exact hm.next ▸ hemits.next_le

theorem step_absAckno_le
    {s : TCPSender} (h : s.absAckno ≤ s.nextSeqnoAbsolute) (op : Op) :
    (s.step op).absAckno ≤ (s.step op).nextSeqnoAbsolute := by
  have hnext := step_next_le s op
  cases op with
  | write data => exact h
  | endInput => exact h
  | fillWindow => exact (fillWindow_absAckno s).le.trans (h.trans hnext)
  | ackReceived ackno windowSize =>
      apply ackReceived_rule (P := fun t => t.absAckno ≤ t.nextSeqnoAbsolute)
      · exact h
      · exact h
      · intro hsent
        have happlied := applied_applyAck s (s.absoluteAckno ackno) windowSize
        rw [fillWindow_absAckno, happlied.absAckno_eq]
        exact hsent.trans (happlied.sameSent.next ▸
          (fillWindow_emits _).next_le)
  | tick ms => exact (tick_absAckno s ms).le.trans (h.trans hnext)
  | sendEmptySegment => exact h

theorem largestAckno_le
    {s : TCPSender} {m : ℕ} (h : m ≤ s.nextSeqnoAbsolute) (op : Op) :
    s.largestAckno m op ≤ s.nextSeqnoAbsolute := by
  cases op with
  | write data => exact h
  | endInput => exact h
  | fillWindow => exact h
  | ackReceived ackno windowSize =>
      simp only [largestAckno]
      split
      next hsent => exact max_le h hsent
      next => exact h
  | tick ms => exact h
  | sendEmptySegment => exact h

theorem Acknowledged.Valid.step (h : x.Valid) (op : Op) :
    (x.step op).Valid where
  tracked := h.tracked.step op
  absAckno_le := step_absAckno_le h.absAckno_le op
  largest_le := (largestAckno_le h.largest_le op).trans (step_next_le _ op)

/-- One step keeps what is in flight right exactly when it meets the
condition. -/
theorem Acknowledged.Valid.cumulative_step_iff
    (h : x.Valid) (hbound : x.sender.nextSeqnoAbsolute < 2 ^ 31)
    (hcumulative : Cumulative x) (op : Op) :
    Cumulative (x.step op) ↔ Retires x.sender op := by
  cases op with
  | write data => exact iff_true_intro (hcumulative.congr rfl rfl rfl)
  | endInput => exact iff_true_intro (hcumulative.congr rfl rfl rfl)
  | fillWindow =>
      obtain ⟨una, acked, rest, hin⟩ := h.tracked
      refine iff_true_intro ?_
      exact (hin.cumulative_emits_iff h.largest_le
        (fillWindow_emits _)).mpr hcumulative
  | ackReceived ackno windowSize =>
      have hcheckpoint := lt_of_le_of_lt h.absAckno_le hbound
      exact h.tracked.cumulative_ackReceived_iff hcumulative h.largest_le
        hbound (unwrap_of_checkpoint_lt ackno _ hcheckpoint)
  | tick ms =>
      have hticked := ticked_tick x.sender ms
      exact iff_true_intro (hcumulative.congr hticked.sameSent.created
        hticked.outstanding hticked.inFlight)
  | sendEmptySegment => exact iff_true_intro (hcumulative.congr rfl rfl rfl)

end Runs

/-- A new sender that has received nothing. -/
def Acknowledged.start (capacity : ℕ) (retxTimeout : UInt16)
    (fixedIsn : Option WrappingInt32) (randomIsn : UInt32) :
    Acknowledged where
  sender := new capacity retxTimeout fixedIsn randomIsn
  largest := 0

/-- Below `2 ^ 31`, acknowledgments are cumulative throughout a run exactly
when every acknowledgment that covers an outstanding segment ends at one and
comes with a window that reaches up to what has been sent. -/
theorem run_cumulative_iff
    (capacity : ℕ) (retxTimeout : UInt16) (fixedIsn : Option WrappingInt32)
    (randomIsn : UInt32) (ops : List Op)
    (hops : Guarded Acknowledged.step
      (fun x _ => x.sender.nextSeqnoAbsolute < 2 ^ 31)
      (.start capacity retxTimeout fixedIsn randomIsn) ops) :
    (∀ pre, pre <+: ops → Cumulative (run Acknowledged.step
        (.start capacity retxTimeout fixedIsn randomIsn) pre)) ↔
      Guarded Acknowledged.step (fun x op => Retires x.sender op)
        (.start capacity retxTimeout fixedIsn randomIsn) ops := by
  have hvalid : (Acknowledged.start capacity retxTimeout fixedIsn
      randomIsn).Valid :=
    { tracked := tracked_new capacity retxTimeout fixedIsn randomIsn
      absAckno_le := le_rfl
      largest_le := le_rfl }
  refine forall_prefix_iff_guarded (fun _ op hx _ => hx.step op)
    (fun x op hx hbound hcumulative => ?_) hvalid ⟨rfl, rfl⟩ hops
  exact hx.cumulative_step_iff hbound hcumulative op

/-- Two segments of two bytes are in flight, from 1 to 3 and from 3 to 5. -/
def twoInFlight : List Op :=
  [.fillWindow, .write [97, 98, 99, 100], .ackReceived ⟨1⟩ 2,
    .ackReceived ⟨1⟩ 4]

theorem run_cumulative_iff_twoInFlight :
    Guarded Acknowledged.step (fun x op => Retires x.sender op)
        (.start 10 1000 (some ⟨0⟩) 0) (twoInFlight ++ [.ackReceived ⟨3⟩ 9]) ∧
      ∀ pre, pre <+: twoInFlight ++ [.ackReceived ⟨3⟩ 9] →
        Cumulative (run Acknowledged.step (.start 10 1000 (some ⟨0⟩) 0) pre) :=
  ⟨by decide,
    (run_cumulative_iff 10 1000 (some ⟨0⟩) 0
      (twoInFlight ++ [.ackReceived ⟨3⟩ 9]) (by decide)).mpr (by decide)⟩

/-- An acknowledgment up to the middle of the second segment does not remove
the first one, and neither does one of the first segment with a window that is
too small. -/
theorem acknowledged_stays_outstanding :
    let inside := run Acknowledged.step (.start 10 1000 (some ⟨0⟩) 0)
      (twoInFlight ++ [.ackReceived ⟨4⟩ 9])
    let shrunken := run Acknowledged.step (.start 10 1000 (some ⟨0⟩) 0)
      (twoInFlight ++ [.ackReceived ⟨3⟩ 1])
    inside.sender.nextSeqnoAbsolute = 5 ∧ inside.largest = 4 ∧
      inside.sender.outstandingSegments.entries.map Prod.fst = [3, 5] ∧
      ¬ Cumulative inside ∧
      shrunken.sender.nextSeqnoAbsolute = 5 ∧ shrunken.largest = 3 ∧
      shrunken.sender.outstandingSegments.entries.map Prod.fst = [3, 5] ∧
      ¬ Cumulative shrunken := by
  refine ⟨by decide, by decide, by decide, ?_, by decide, by decide,
    by decide, ?_⟩
  · intro hcumulative
    exact absurd hcumulative.outstanding_eq (by decide)
  · intro hcumulative
    exact absurd hcumulative.outstanding_eq (by decide)

end TCPSender

end Sponge
