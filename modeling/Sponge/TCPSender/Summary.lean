import Sponge.TCPHelpers.TCPState
import Sponge.TCPSender.Accounting
import Sponge.TCPSender.Segmentation

/-!
# The summary of a sender

`TCPState` looks at a sender from outside: it derives what has happened to the
SYN and the FIN from the next sequence number, the bytes in flight and the
counters of the stream.  As long as nothing is written after the end of the
stream, what it derives is what the sender has noted in its flags, and what an
observer sees who has watched the outstanding segments from the start.
-/

namespace Sponge

namespace TCPSender

/-- Some outstanding segment of the first sender is not outstanding in the
second one. -/
def Removes (s t : TCPSender) : Prop :=
  ∃ e ∈ s.outstandingSegments.entries, e ∉ t.outstandingSegments.entries

instance removesDecidable (s t : TCPSender) : Decidable (Removes s t) :=
  inferInstanceAs (Decidable (∃ e ∈ s.outstandingSegments.entries, _))

/-- No step of the run removes an outstanding segment. -/
def NeverRemoves (s : TCPSender) (ops : List Op) : Prop :=
  Guarded step (fun r op => ¬ Removes r (r.step op)) s ops

instance neverRemovesDecidable (s : TCPSender) (ops : List Op) :
    Decidable (NeverRemoves s ops) :=
  inferInstanceAs (Decidable (Guarded _ _ _ _))

section Removal

variable {s t : TCPSender} {una una' : ℕ}
  {acked front back rest more : List (ℕ × TCPSegment)}

/-- Removed are the segments over which the boundary moves. -/
theorem InFlight.removes_iff
    (hs : InFlight s una acked (front ++ back))
    (ht : InFlight t una' (acked ++ front) (back ++ more)) :
    Removes s t ↔ front ≠ [] := by
  unfold Removes
  rw [hs.outstanding_eq, ht.outstanding_eq]
  constructor
  · rintro ⟨e, hmem, hnot⟩ rfl
    rw [stops_append] at hnot
    exact hnot (List.mem_append_left _ hmem)
  · intro hne
    obtain ⟨d, hd⟩ := List.exists_mem_of_ne_nil front hne
    have hfront : (d.1 + d.2.lengthInSequenceSpace, d.2) ∈
        stops TCPSegment.lengthInSequenceSpace front :=
      List.mem_map.mpr ⟨d, hd, rfl⟩
    have hacked : (d.1 + d.2.lengthInSequenceSpace, d.2) ∈
        stops TCPSegment.lengthInSequenceSpace (acked ++ front) := by
      rw [stops_append]
      exact List.mem_append_right _ hfront
    refine ⟨(d.1 + d.2.lengthInSequenceSpace, d.2), ?_, ?_⟩
    · rw [stops_append]
      exact List.mem_append_left _ hfront
    · intro hmem
      have hle := ht.acked_contiguous.stop_le hacked
      have hlt := ht.rest_contiguous.lt_stop ht.positive hmem
      exact absurd hle (not_le.mpr hlt)

/-- The segments that a run acknowledges are none exactly when no step removes
an outstanding one. -/
theorem InFlight.run_acked
    (h : InFlight s una acked rest) (ops : List Op) :
    ∃ una' acked' rest',
      InFlight (run TCPSender.step s ops) una' acked' rest' ∧
      acked <+: acked' ∧ (acked' = acked ↔ NeverRemoves s ops) := by
  induction ops generalizing s una acked rest with
  | nil =>
      exact ⟨una, acked, rest, h, List.prefix_rfl, iff_of_true rfl trivial⟩
  | cons op ops ih =>
      obtain ⟨una₁, front, back, more, rfl, hstep⟩ := h.step op
      obtain ⟨una', acked', rest', hrun, hle, hiff⟩ := ih hstep
      refine ⟨una', acked', rest', hrun,
        (List.prefix_append acked front).trans hle, ?_⟩
      have hremoves := h.removes_iff hstep
      constructor
      · rintro rfl
        have hfront : front = [] := by
          have hlength := hle.length_le
          rw [List.length_append] at hlength
          apply List.eq_nil_of_length_eq_zero
          omega
        rw [hfront, List.append_nil] at hiff
        exact ⟨fun hsome => hremoves.mp hsome hfront, hiff.mp rfl⟩
      · rintro ⟨hkept, hrest⟩
        have hfront : front = [] := by
          by_contra hne
          exact hkept (hremoves.mpr hne)
        rw [hiff.mpr hrest, hfront, List.append_nil]

/-- The boundary stays at zero as long as nothing is acknowledged. -/
theorem InFlight.una_eq_zero_iff
    (h : InFlight s una acked rest) (hstamped : Stamped s) :
    una = 0 ↔ acked = [] := by
  have hpositive : ∀ e ∈ acked, 0 < e.2.lengthInSequenceSpace := by
    intro e he
    refine (hstamped e ?_).2
    rw [h.created_eq]
    exact List.mem_append_left _ he
  rw [h.acked_contiguous.eq_nil_iff hpositive]
  exact eq_comm

/-- All that has been sent is in flight as long as no step has removed an
outstanding segment. -/
theorem run_next_eq_inFlight_iff
    (capacity : ℕ) (retxTimeout : UInt16) (fixedIsn : Option WrappingInt32)
    (randomIsn : UInt32) (ops : List Op) :
    (run step (new capacity retxTimeout fixedIsn randomIsn)
          ops).nextSeqnoAbsolute =
        (run step (new capacity retxTimeout fixedIsn randomIsn)
          ops).bytesInFlight ↔
      NeverRemoves (new capacity retxTimeout fixedIsn randomIsn) ops := by
  have hstamped : Stamped
      (run step (new capacity retxTimeout fixedIsn randomIsn) ops) :=
    run_preserves (fun _ op hs => hs.step op)
      (stamped_new capacity retxTimeout fixedIsn randomIsn) ops
  obtain ⟨una, acked, rest, hin⟩ :=
    tracked_new capacity retxTimeout fixedIsn randomIsn
  have hnone : acked = [] :=
    (List.append_eq_nil_iff.mp hin.created_eq.symm).1
  obtain ⟨una', acked', rest', hrun, -, hacked⟩ := hin.run_acked ops
  have hflight := hrun.inFlight_eq
  rw [← hacked, hnone, ← hrun.una_eq_zero_iff hstamped]
  omega

end Removal

section Summary

variable {s : TCPSender}

theorem Segmented.next_eq_zero_iff (h : Segmented s) :
    s.nextSeqnoAbsolute = 0 ↔ s.syn = false := by
  constructor
  · intro hzero
    by_contra hsyn
    have hnext := h.next_eq
    rw [Bool.eq_true_of_not_eq_false hsyn, Bool.toNat_true] at hnext
    omega
  · exact h.next_of_not_syn

/-- The summary in terms of the flags of the sender. -/
theorem Segmented.senderSummary_eq
    (h : Segmented s) (herror : s.streamIn.error = false) :
    TCPState.senderSummary s =
      if s.syn = false then .closed
      else if s.nextSeqnoAbsolute = s.bytesInFlight then .synSent
      else if s.finSent = false then .synAcked
      else if s.outstandingSegments.isEmpty = true then .finAcked
      else .finSent := by
  have hnext := h.next_eq
  have hwritten := s.streamIn.bytesWritten_eq
  rw [← ByteStream.bytesRead_eq_length] at hnext
  rw [TCPState.senderSummary, if_neg (by rw [herror]; decide)]
  simp only [h.next_eq_zero_iff, h.tracked.isEmpty_iff]
  split
  · rfl
  next hsyn =>
    rw [Bool.eq_true_of_not_eq_false hsyn, Bool.toNat_true] at hnext
    split
    · rfl
    · cases hfin : s.finSent with
      | false =>
          rw [hfin, Bool.toNat_false] at hnext
          rw [if_pos rfl, if_pos (show s.nextSeqnoAbsolute <
            s.streamIn.bytesWritten + 2 by omega), ite_self]
      | true =>
          obtain ⟨-, heof⟩ := h.eof_of_finSent hfin
          rw [((eof_iff _).mp heof).2] at hwritten
          rw [hfin, Bool.toNat_true] at hnext
          rw [if_neg (show ¬ (!s.streamIn.eof) = true by rw [heof]; decide),
            if_neg (show ¬ s.nextSeqnoAbsolute <
              s.streamIn.bytesWritten + 2 by omega),
            if_neg (by decide : ¬ true = false)]
          exact ite_not _ _ _

/-- What each summary says. -/
theorem Segmented.senderSummary_iff
    (h : Segmented s) (herror : s.streamIn.error = false) :
    (TCPState.senderSummary s = .closed ↔ s.syn = false) ∧
      (TCPState.senderSummary s = .synSent ↔
        s.syn = true ∧ s.nextSeqnoAbsolute = s.bytesInFlight) ∧
      (s.syn = true → ¬ s.nextSeqnoAbsolute = s.bytesInFlight →
        (TCPState.senderSummary s = .finAcked ↔
          s.finSent = true ∧ s.outstandingSegments.isEmpty = true) ∧
        (TCPState.senderSummary s = .finSent ↔
          s.finSent = true ∧ s.outstandingSegments.isEmpty = false) ∧
        (TCPState.senderSummary s = .synAcked ↔ s.finSent = false)) := by
  rw [h.senderSummary_eq herror]
  cases s.syn with
  | false => simp
  | true =>
      by_cases hall : s.nextSeqnoAbsolute = s.bytesInFlight
      · simp [hall]
      · cases s.finSent with
        | false => simp [hall]
        | true => cases s.outstandingSegments.isEmpty <;> simp [hall]

end Summary

theorem run_error
    (s : TCPSender) (ops : List Op) :
    (run step s ops).streamIn.error = s.streamIn.error := by
  refine run_preserves
    (P := fun r : TCPSender => r.streamIn.error = s.streamIn.error)
    (fun r op hr => ?_) rfl ops
  obtain ⟨m, hm, hemits⟩ := step_emits r op
  rw [hemits.error, hm.streamIn, Op.onStream_error, hr]

/-- In every run in which nothing is written after the end of the input, the
next sequence number counts the SYN, the bytes that were read and the FIN, and
the summary says what has become of the SYN and the FIN. -/
theorem run_senderSummary
    (capacity : ℕ) (retxTimeout : UInt16) (fixedIsn : Option WrappingInt32)
    (randomIsn : UInt32) (ops : List Op)
    (hops : Guarded step NoWriteAfterEnd
      (new capacity retxTimeout fixedIsn randomIsn) ops) :
    let start := new capacity retxTimeout fixedIsn randomIsn
    let s := run step start ops
    let summary := TCPState.senderSummary s
    s.nextSeqnoAbsolute =
        s.syn.toNat + s.streamIn.bytesRead + s.finSent.toNat ∧
      (s.syn = true ↔ ∃ e ∈ s.created, e.2.header.syn = true) ∧
      (s.finSent = true ↔ ∃ e ∈ s.created, e.2.header.fin = true) ∧
      (summary = .closed ↔ s.syn = false) ∧
      (summary = .synSent ↔ s.syn = true ∧ NeverRemoves start ops) ∧
      (s.syn = true → ¬ NeverRemoves start ops →
        (summary = .finAcked ↔
          s.finSent = true ∧ s.outstandingSegments.isEmpty = true) ∧
        (summary = .finSent ↔
          s.finSent = true ∧ s.outstandingSegments.isEmpty = false) ∧
        (summary = .synAcked ↔ s.finSent = false)) := by
  intro start s summary
  have hsegmented : Segmented s :=
    run_invariant (fun _ _ hs hop => hs.step hop)
      (segmented_new capacity retxTimeout fixedIsn randomIsn) hops
  have hfin : FinNoted s :=
    run_preserves (fun _ op hs => hs.step op)
      (finNoted_new capacity retxTimeout fixedIsn randomIsn) ops
  have hsummary := hsegmented.senderSummary_iff
    ((run_error start ops).trans rfl)
  have hkept : s.nextSeqnoAbsolute = s.bytesInFlight ↔
      NeverRemoves start ops :=
    run_next_eq_inFlight_iff capacity retxTimeout fixedIsn randomIsn ops
  rw [hkept] at hsummary
  refine ⟨?_, ?_, hfin, hsummary⟩
  · rw [hsegmented.next_eq, ByteStream.bytesRead_eq_length]
    omega
  · rcases hsegmented.synFirst with
      ⟨hsyn, hcreated⟩ | ⟨hsyn, first, rest, hcreated, hfirst, -⟩
    · rw [hsyn, hcreated]
      simp
    · rw [hsyn, hcreated]
      simp [hfirst]

/-- After the short run the FIN is outstanding. -/
theorem run_senderSummary_shortRun :
    Guarded step NoWriteAfterEnd (new 10 1000 (some ⟨0⟩) 0) shortRun ∧
      ¬ NeverRemoves (new 10 1000 (some ⟨0⟩) 0) shortRun ∧
      TCPState.senderSummary
        (run step (new 10 1000 (some ⟨0⟩) 0) shortRun) = .finSent := by
  obtain ⟨-, -, -, -, -, hlater⟩ :=
    run_senderSummary 10 1000 (some ⟨0⟩) 0 shortRun (by decide)
  refine ⟨by decide, by decide, ?_⟩
  exact (hlater (by decide) (by decide)).2.1.mpr (by decide)

end TCPSender

end Sponge
