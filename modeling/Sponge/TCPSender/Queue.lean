import Sponge.Support.Path
import Sponge.TCPSender.Allowance

/-!
# The sender in front of a reliable network

If the network keeps the order and loses nothing, the segments in transit can
be read from the oldest to the newest: each of them starts where those before
it stop, or repeats what they have covered, and together they reach the next
sequence number of the sender.  This holds of what a single step queues, so it
holds of the whole queue.

The second part follows what the sender knows of its peer: the acknowledgment
number and the end of the window.  As long as these only grow, no
acknowledgment is ignored, and the sender waits for one exactly when it has
something in flight.
-/

namespace Sponge

namespace TCPSender

/-! ## What a step queues -/

/-- After everything before the sequence number `pos`, the segment covers
everything before `pos'`.  It starts at `pos`, or it is old. -/
def Advances (isn : WrappingInt32) (pos : ℕ) (seg : TCPSegment) (pos' : ℕ) :
    Prop :=
  ∃ n, seg.header.seqno = wrap n isn ∧
    (n = pos ∧ pos' = pos + seg.lengthInSequenceSpace ∨
      n + seg.lengthInSequenceSpace ≤ pos ∧ pos' = pos)

/-- From `s` to `t` the sender has queued segments that advance as far as its
next sequence number has. -/
structure Continues (s t : TCPSender) : Prop where
  isn : t.isn = s.isn
  queued : ∃ new, t.segmentsOut = s.segmentsOut ++ new ∧
    Path (Advances s.isn) s.nextSeqnoAbsolute new t.nextSeqnoAbsolute

section Continues

variable {s t r : TCPSender} {segment : TCPSegment}

theorem continues_of_same
    (hisn : t.isn = s.isn) (hout : t.segmentsOut = s.segmentsOut)
    (hnext : t.nextSeqnoAbsolute = s.nextSeqnoAbsolute) : Continues s t :=
  ⟨hisn, [], by rw [hout, List.append_nil], hnext.symm⟩

theorem Continues.refl (s : TCPSender) : Continues s s := continues_of_same rfl rfl rfl

theorem Continues.trans (h : Continues s t) (h' : Continues t r) : Continues s r := by
  obtain ⟨new, hout, hpath⟩ := h.queued
  obtain ⟨new', hout', hpath'⟩ := h'.queued
  refine ⟨h'.isn.trans h.isn, new ++ new', ?_, ?_⟩
  · rw [hout', hout, List.append_assoc]
  · rw [h.isn] at hpath'
    exact path_append.mpr ⟨t.nextSeqnoAbsolute, hpath, hpath'⟩

theorem Emission.continues (h : Emission s segment t) : Continues s t := by
  refine ⟨h.isn, [segment], h.segmentsOut, path_singleton.mpr ?_⟩
  exact ⟨s.nextSeqnoAbsolute, h.seqno, Or.inl ⟨rfl, h.next⟩⟩

theorem Emits.continues (h : Emits s t) : Continues s t :=
  h.preserves (P := fun r => Continues s r)
    (fun _ _ _ he hr => hr.trans he.continues) (.refl s)

/-- A retransmission covers nothing new. -/
theorem Segmented.continues_tick (h : Segmented s) (ms : ℕ) :
    Continues s (s.tick ms) := by
  have hticked := ticked_tick s ms
  have hsame := hticked.sameSent
  rcases hticked.segmentsOut with hout | ⟨e, hhead, hout⟩
  · exact continues_of_same hsame.isn hout hsame.next
  · obtain ⟨una, acked, rest, hin⟩ := h.tracked
    have hmem := List.mem_of_head? hhead
    rw [hin.outstanding_eq] at hmem
    obtain ⟨⟨n, seg⟩, hrest, rfl⟩ := List.mem_map.mp hmem
    have hbounds := hin.rest_contiguous.mem_bounds hrest
    have hcreated : (n, seg) ∈ s.created := by
      rw [hin.created_eq]
      exact List.mem_append_right _ hrest
    refine ⟨hsame.isn, [seg], hout, path_singleton.mpr ?_⟩
    exact ⟨n, h.seqno _ hcreated, Or.inr ⟨hbounds.2, hsame.next⟩⟩

theorem continues_sendEmptySegment (s : TCPSender) :
    Continues s s.sendEmptySegment := by
  refine ⟨rfl, _, rfl, path_singleton.mpr ?_⟩
  exact ⟨s.nextSeqnoAbsolute, rfl, Or.inl ⟨rfl, rfl⟩⟩

theorem continues_ackReceived
    (s : TCPSender) (ackno : WrappingInt32) (windowSize : UInt16) :
    Continues s (s.ackReceived ackno windowSize) := by
  apply ackReceived_rule (P := fun t => Continues s t)
  · exact .refl s
  · exact continues_of_same rfl rfl rfl
  · intro _
    have happlied := applied_applyAck s (s.absoluteAckno ackno) windowSize
    exact (continues_of_same happlied.sameSent.isn happlied.segmentsOut
      happlied.sameSent.next).trans (fillWindow_emits _).continues

theorem Segmented.continues_drivenStep (h : Segmented s) (op : Op) :
    Continues s (s.drivenStep op) := by
  cases op with
  | write data =>
      have hwritten : Continues s (s.step (.write data)) :=
        continues_of_same rfl rfl rfl
      exact hwritten.trans (fillWindow_emits _).continues
  | endInput =>
      have hended : Continues s (s.step .endInput) :=
        continues_of_same rfl rfl rfl
      exact hended.trans (fillWindow_emits _).continues
  | fillWindow => exact (fillWindow_emits s).continues
  | ackReceived ackno windowSize => exact continues_ackReceived s ackno windowSize
  | tick ms => exact h.continues_tick ms
  | sendEmptySegment => exact continues_sendEmptySegment s

end Continues

/-! ## What the sender knows of its peer -/

/-- The end of the window, as far as the sender knows.  Before the first
acknowledgment there is room for the SYN. -/
def edge (s : TCPSender) : ℕ := max 1 (s.nextSeqnoAbsolute + s.recvWdnSz)

/-- The sender has the last acknowledgment that it can expect exactly if
nothing is in flight. -/
structure Attentive (s : TCPSender) : Prop where
  segmented : Segmented s
  fresh : s.syn = false → s.nextSeqnoAbsolute = 0 ∧ s.recvWdnSz = 0
  absAckno : s.absAckno ≤ s.nextSeqnoAbsolute
  idle_iff : s.bytesInFlight = 0 ↔ s.absAckno = s.nextSeqnoAbsolute

/-- From `s` to `t` nothing has been learned of the peer. -/
def Unaware (s t : TCPSender) : Prop :=
  t.absAckno = s.absAckno ∧ t.edge = s.edge

section Attentive

variable {s t : TCPSender}

theorem attentive_new
    (capacity : ℕ) (retxTimeout : UInt16) (fixedIsn : Option WrappingInt32)
    (randomIsn : UInt32) :
    Attentive (new capacity retxTimeout fixedIsn randomIsn) where
  segmented := segmented_new capacity retxTimeout fixedIsn randomIsn
  fresh := fun _ => ⟨rfl, rfl⟩
  absAckno := le_rfl
  idle_iff := ⟨fun _ => rfl, fun _ => rfl⟩

/-- Emissions use up the window and are in flight. -/
theorem Attentive.emits
    (h : Attentive s) (hsegmented : Segmented t) (he : Emits s t)
    (habs : t.absAckno = s.absAckno) : Attentive t ∧ Unaware s t := by
  have hrest : (t.syn = false → t.nextSeqnoAbsolute = 0 ∧ t.recvWdnSz = 0) ∧
      t.edge = s.edge ∧ s.absAckno ≤ t.nextSeqnoAbsolute ∧
      (t.bytesInFlight = 0 ↔ s.absAckno = t.nextSeqnoAbsolute) := by
    refine he.preserves (P := fun r =>
      (r.syn = false → r.nextSeqnoAbsolute = 0 ∧ r.recvWdnSz = 0) ∧
        r.edge = s.edge ∧ s.absAckno ≤ r.nextSeqnoAbsolute ∧
        (r.bytesInFlight = 0 ↔ s.absAckno = r.nextSeqnoAbsolute)) ?_
      ⟨h.fresh, rfl, h.absAckno, h.idle_iff⟩
    rintro r segment t hemission ⟨hfresh, hedge, hle, -⟩
    have hnext := hemission.next
    have hflight := hemission.inFlight
    have hpos := hemission.positive
    refine ⟨?_, ?_, by omega, by omega⟩
    · intro hno
      exact absurd (hemission.syn.symm.trans hno) (by decide)
    · rw [← hedge, edge, edge]
      cases hsyn : r.syn with
      | true =>
          have hused := hemission.window hsyn
          congr 1
          omega
      | false =>
          have hsegment : segment.header.syn = true := by
            rw [hemission.synFirst, hsyn]
            rfl
          obtain ⟨hpayload, hfin⟩ := hemission.synAlone hsegment
          have hlength : segment.lengthInSequenceSpace = 1 := by
            rw [TCPSegment.lengthInSequenceSpace, hpayload, hsegment, hfin]
            rfl
          obtain ⟨hzero, hnone⟩ := hfresh hsyn
          rw [hemission.windowSyn hsyn, hnone]
          omega
  obtain ⟨hfresh, hedge, hle, hidle⟩ := hrest
  refine ⟨⟨hsegmented, hfresh, ?_, ?_⟩, habs, hedge⟩
  · rw [habs]
    exact hle
  · rw [habs]
    exact hidle

theorem Attentive.fillWindow (h : Attentive s) :
    Attentive s.fillWindow ∧ Unaware s s.fillWindow :=
  h.emits h.segmented.fillWindow (fillWindow_emits s) (fillWindow_absAckno s)

/-- Another stream or another queue makes no difference. -/
theorem Attentive.congr
    (h : Attentive s) (hsegmented : Segmented t) (hsyn : t.syn = s.syn)
    (hnext : t.nextSeqnoAbsolute = s.nextSeqnoAbsolute)
    (hwindow : t.recvWdnSz = s.recvWdnSz)
    (hflight : t.bytesInFlight = s.bytesInFlight)
    (habs : t.absAckno = s.absAckno) : Attentive t ∧ Unaware s t := by
  refine ⟨⟨hsegmented, ?_, ?_, ?_⟩, habs, ?_⟩
  · rw [hsyn, hnext, hwindow]
    exact h.fresh
  · rw [habs, hnext]
    exact h.absAckno
  · rw [hflight, habs, hnext]
    exact h.idle_iff
  · rw [edge, edge, hnext, hwindow]

/-- An acknowledgment of everything that was sent leaves nothing in flight,
and one of less leaves something. -/
theorem Attentive.idle_applied_iff
    (h : Attentive s) {absAckno : ℕ} {windowSize : UInt16}
    (ha : Applied s absAckno windowSize t)
    (hnew : s.absAckno ≤ absAckno) (hsent : absAckno ≤ s.nextSeqnoAbsolute) :
    t.bytesInFlight = 0 ↔ absAckno = t.nextSeqnoAbsolute := by
  obtain ⟨una, acked, rest, hin⟩ := h.segmented.tracked
  have hidle := h.idle_iff
  have hflight := hin.inFlight_eq
  rw [ha.sameSent.next]
  rcases ha.removed with ⟨hnone, -, hsame⟩ | ⟨segment, hsome, hout, -⟩
  · -- nothing ends at the acknowledgment number
    rw [hsame, hidle]
    constructor
    · omega
    · intro heq
      rw [← hidle, hin.inFlight_eq_zero_iff]
      by_contra hne
      obtain ⟨x, hx⟩ := hin.rest_contiguous.exists_mem_stops hne
      rw [← hin.outstanding_eq, ← heq] at hx
      rw [OrderedMap.find?_of_mem hx] at hnone
      exact absurd hnone (by simp)
  · obtain ⟨una', front, back, hsplit, hafter, hboundary⟩ := hin.applied ha
    have hnow := hafter.inFlight_eq
    rw [ha.sameSent.next] at hnow
    rcases hboundary with heq | hfront
    · omega
    · -- the segment that ends there has been removed
      have hmem := OrderedMap.mem_of_find? hsome
      have hkept : t.outstandingSegments.entries =
          s.outstandingSegments.entries := by
        rw [hafter.outstanding_eq, hin.outstanding_eq, hsplit, hfront,
          List.nil_append]
      rw [← hkept, hout, OrderedMap.filterKeys_entries,
        List.mem_filter] at hmem
      exact absurd hmem.2 (by simp)

/-- An acknowledgment that is not older than the last one, and whose window
does not end before the one known, is taken over. -/
theorem Attentive.ackReceived
    (h : Attentive s) {ackno : WrappingInt32} {windowSize : UInt16}
    {k : ℕ} (hk : s.absoluteAckno ackno = k) (hlt : k + windowSize.toNat < 2 ^ 64)
    (hsyn : s.syn = true) (hpos : 0 < windowSize.toNat)
    (hnew : s.absAckno ≤ k) (hsent : k ≤ s.nextSeqnoAbsolute)
    (hedge : s.edge ≤ k + windowSize.toNat) :
    Attentive (s.ackReceived ackno windowSize) ∧
      (s.ackReceived ackno windowSize).absAckno = k ∧
      (s.ackReceived ackno windowSize).edge = k + windowSize.toNat := by
  have hroom : s.nextSeqnoAbsolute ≤ add64 k windowSize.toNat := by
    rw [add64, Nat.mod_eq_of_lt hlt]
    rw [edge] at hedge
    omega
  have happlied := applied_applyAck s k windowSize
  have hopened : (s.applyAck k windowSize).recvWdnSz + s.nextSeqnoAbsolute =
      k + max windowSize.toNat 1 := by
    rw [← hk] at hsent hroom ⊢
    exact applied_window hsent hroom
  have hready : Attentive (s.applyAck k windowSize) := by
    refine ⟨h.segmented.sameSent (h.segmented.tracked.applied happlied)
      happlied.sameSent, ?_, ?_, ?_⟩
    · intro hno
      exact absurd (hsyn.symm.trans (happlied.sameSent.syn.symm.trans hno))
        (by decide)
    · rw [happlied.absAckno_eq, happlied.sameSent.next]
      exact hsent
    · rw [happlied.absAckno_eq]
      exact h.idle_applied_iff happlied hnew hsent
  have heq : s.ackReceived ackno windowSize =
      (s.applyAck k windowSize).fillWindow := by
    rcases ackReceived_cases s ackno windowSize with
      ⟨hbeyond, -⟩ | ⟨-, hclosed, -⟩ | ⟨-, -, heq⟩
    · omega
    · rw [hk] at hclosed
      omega
    · rw [heq, hk]
  obtain ⟨hattentive, habs, hsame⟩ := hready.fillWindow
  rw [heq]
  refine ⟨hattentive, habs.trans happlied.absAckno_eq, hsame.trans ?_⟩
  rw [edge, happlied.sameSent.next]
  omega

/-- All other operations teach the sender nothing. -/
theorem Attentive.drivenStep
    (h : Attentive s) {op : Op} (hop : EndRespected s op)
    (hack : ∀ ackno windowSize, op ≠ .ackReceived ackno windowSize) :
    Attentive (s.drivenStep op) ∧ Unaware s (s.drivenStep op) := by
  have hsegmented := h.segmented.drivenStep hop
  cases op with
  | write data =>
      obtain ⟨hwritten, -⟩ : Attentive (s.step (.write data)) ∧ _ :=
        h.congr (h.segmented.write hop) rfl rfl rfl rfl rfl
      exact hwritten.fillWindow
  | endInput =>
      obtain ⟨hended, -⟩ : Attentive (s.step .endInput) ∧ _ :=
        h.congr h.segmented.endInput rfl rfl rfl rfl rfl
      exact hended.fillWindow
  | fillWindow => exact h.fillWindow
  | ackReceived ackno windowSize => exact absurd rfl (hack ackno windowSize)
  | tick ms =>
      have hticked := ticked_tick s ms
      exact h.congr hsegmented hticked.sameSent.syn hticked.sameSent.next
        hticked.window hticked.inFlight (tick_absAckno s ms)
  | sendEmptySegment => exact h.congr hsegmented rfl rfl rfl rfl rfl

end Attentive

end TCPSender

end Sponge
